import Mathlib.Data.List.Nodup
import Logbook.Proofs.Store.Frames

/-! Logs hold what was appended to them: which records a log has is determined by the history of the
run, and every record has one append. -/
namespace Logbook

namespace Log

@[simp] theorem number_push (l : Log) (index : Nat) (data : Bytes) :
    (l.push index data).number = l.number := rfl

@[simp] theorem name_push (l : Log) (index : Nat) (data : Bytes) :
    (l.push index data).name = l.name := rfl

@[simp] theorem size_push (l : Log) (index : Nat) (data : Bytes) :
    (l.push index data).size = l.size := by simp [push, size]

theorem partitions_push (l : Log) (index : Nat) (data : Bytes) (i : Nat) :
    (l.push index data).partitions[i]? =
      (l.partitions[i]?).map fun rs => if index = i then rs ++ [data] else rs := by
  rw [push, List.getElem?_modify]
  cases l.partitions[i]? with
  | none => rfl
  | some rs => by_cases here : index = i <;> simp [here]

end Log

namespace Store

variable {s s' : Store} {a : Action} {past : List Event} {l : Log}

theorem log?_mem {name : String} (found : s.log? name = some l) : l ∈ s.logs ∧ l.name = name :=
  ⟨List.mem_of_find?_eq_some found, by simpa using List.find?_some found⟩

theorem log?_putRecord (s : Store) (l : Log) (index : Nat) (data : Bytes) (name : String) :
    (s.putRecord l index data).log? name =
      (s.log? name).map fun k => if k.number = l.number then k.push index data else k := by
  rw [log?, putRecord, List.find?_map, log?]
  congr 2
  funext k
  simp only [Function.comp_apply]
  split <;> rfl

theorem delete_eq_true {name : String} (allowed : s.config.canDelete = true)
    (there : s.contains name = true) : (s.delete name).1 = true := by
  simp [delete, allowed, there]

theorem log?_creates (s : Store) (name other : String) (size : Nat) :
    log? (rebalanceWatchers { s with
      logs := s.logs ++ [Log.mk s.created name (List.replicate size [])]
      created := s.created + 1 } name) other =
        (s.log? other).or (if name = other then
          some ⟨s.created, name, List.replicate size []⟩ else none) := by
  refine List.find?_append.trans ?_
  by_cases same : name = other <;> simp [log?, same]

theorem log?_deletes (s : Store) (name other : String) :
    log? (rebalanceWatchers { s with
      logs := s.logs.filter (·.name ≠ name)
      committed := s.committed.filter (·.1.partition.log ≠ name) } name) other =
        if name = other then none else s.log? other := by
  refine (List.find?_filter).trans ?_
  by_cases same : name = other
  · simp [same]
  · rw [if_neg same, log?]
    congr 1
    funext k
    by_cases here : k.name = other
    · simp [here, Ne.symm same]
    · simp [here]

/-- The log under a name changes when one is created or deleted, and when a record is put into
it. -/
theorem Effect.log (step : Effect s a s') (name : String) :
    s'.log? name = s.log? name ∨
      (∃ size, a = .create name size ∧ s.log? name = none ∧
        s'.log? name = some ⟨s.created, name, List.replicate size []⟩) ∨
      (a = .delete name ∧ (s.delete name).1 = true ∧ s'.log? name = none) ∨
      ∃ l index data, s.log? name = some l ∧ s'.log? name = some (l.push index data) := by
  cases step with
  | @creates created size _ absent =>
    rw [log?_creates]
    by_cases same : created = name
    · subst same
      exact .inr (.inl ⟨size, rfl, absent, by rw [absent, if_pos rfl]; rfl⟩)
    · exact .inl (by rw [if_neg same, Option.or_none])
  | @deletes deleted allowed there =>
    rw [log?_deletes]
    by_cases same : deleted = name
    · subst same
      exact .inr (.inr (.inl ⟨rfl, delete_eq_true allowed there, if_pos rfl⟩))
    · exact .inl (if_neg same)
  | @appends _ _ index _ l _ data =>
    rw [log?_putRecord]
    cases found : s.log? name with
    | none => exact .inl rfl
    | some k =>
      by_cases same : k.number = l.number
      · exact .inr (.inr (.inr ⟨k, index, data, rfl, by simp [same]⟩))
      · exact .inl (by simp [same])
  | commits =>
    rw [foldl_commit_eq]
    exact .inl rfl
  | leaves =>
    rw [leaveGroup_eq]
    exact .inl rfl
  | keeps | opensAppender | closesAppender | refusesTailer | createsTailer | subscribes | turns
  | closesTailer | setsFaults => exact .inl rfl

theorem sizeOf?_putRecord (s : Store) (l : Log) (index : Nat) (data : Bytes) :
    (s.putRecord l index data).sizeOf? = s.sizeOf? := by
  funext name
  simp only [sizeOf?, log?_putRecord]
  cases s.log? name with
  | none => rfl
  | some k =>
    simp only [Option.map_some]
    split
    · rw [Log.size_push]
    · rfl

theorem Effect.sizeOf? (step : Effect s a s') (name : String) :
    s'.sizeOf? name = s.sizeOf? name ∨ (∃ size, a = .create name size) ∨ a = .delete name := by
  simp only [Store.sizeOf?]
  rcases step.log name with same | ⟨size, rfl, -⟩ | ⟨rfl, -⟩ | ⟨l, index, data, old, new⟩
  · exact .inl (by rw [same])
  · exact .inr (.inl ⟨size, rfl⟩)
  · exact .inr (.inr rfl)
  · exact .inl (by rw [old, new, Option.map_some, Option.map_some, Log.size_push])

def appendedAt (past : List Event) (log : Nat) (o : Offset) : List Bytes :=
  past.filterMap fun
    | .appended l q data => if l = log ∧ q = o then some data else none
    | .consumed _ _ _ => none

/-- Each record of a log was appended once, and no other record was appended to it. -/
structure Recorded (s : Store) (past : List Event) : Prop where
  numbered : ∀ {l}, l ∈ s.logs → l.number < s.created
  distinct : (s.logs.map Log.number).Nodup
  later : ∀ {log o}, s.created ≤ log → appendedAt past log o = []
  stored : ∀ {l i rs}, l ∈ s.logs → l.partitions[i]? = some rs →
    ∀ k, appendedAt past l.number ⟨⟨l.name, i⟩, k⟩ = rs[k]?.toList

theorem appendedAt_append (past more : List Event) (log : Nat) (o : Offset) :
    appendedAt (past ++ more) log o = appendedAt past log o ++ appendedAt more log o :=
  List.filterMap_append

theorem appendedAt_lookEvents (s : Store) (r : TailerRef) (log : Nat) (o : Offset) :
    appendedAt (s.lookEvents r) log o = [] := by
  unfold lookEvents
  split
  · rfl
  · split <;> rfl

theorem appendedAt_singleton (number log : Nat) (o q : Offset) (data : Bytes) :
    appendedAt [.appended number o data] log q =
      if number = log ∧ o = q then [data] else [] := by
  by_cases same : number = log ∧ o = q <;> simp [appendedAt, same]

theorem getElem?_concat_toList (records : List Bytes) (data : Bytes) (k : Nat) :
    (records ++ [data])[k]?.toList =
      records[k]?.toList ++ if records.length = k then [data] else [] := by
  rcases Nat.lt_trichotomy k records.length with before | rfl | behind
  · simp [List.getElem?_append, before, Nat.ne_of_gt before]
  · simp
  · simp [List.getElem?_append, Nat.not_lt_of_gt behind, Nat.ne_of_lt behind,
      Nat.sub_ne_zero_of_lt behind]

theorem Recorded.fewer (recorded : Recorded s past)
    (silent : ∀ log o, appendedAt (s.events a) log o = []) (logs : s'.logs.Sublist s.logs)
    (created : s'.created = s.created) : Recorded s' (past ++ s.events a) where
  numbered member := created ▸ recorded.numbered (logs.subset member)
  distinct := recorded.distinct.sublist (logs.map _)
  later {log o} late := by
    rw [appendedAt_append, silent, List.append_nil]
    exact recorded.later (created ▸ late)
  stored {l i rs} member there k := by
    rw [appendedAt_append, silent, List.append_nil]
    exact recorded.stored (logs.subset member) there k

theorem Recorded.creates {name : String} {size : Nat} (recorded : Recorded s past)
    (logs : s'.logs = s.logs ++ [⟨s.created, name, List.replicate size []⟩])
    (created : s'.created = s.created + 1) : Recorded s' past where
  numbered {l} member := by
    rw [logs, List.mem_append, List.mem_singleton] at member
    rcases member with old | rfl
    · have below := recorded.numbered old
      omega
    · exact created ▸ Nat.lt_succ_self _
  distinct := by
    rw [logs, List.map_append, List.map_singleton, List.nodup_append]
    refine ⟨recorded.distinct, List.nodup_singleton _, ?_⟩
    rintro number old other new rfl
    obtain ⟨l, member, rfl⟩ := List.mem_map.mp old
    have below := recorded.numbered member
    simp only [List.mem_singleton] at new
    omega
  later late := recorded.later (by omega)
  stored {l i rs} member there k := by
    rw [logs, List.mem_append, List.mem_singleton] at member
    rcases member with old | rfl
    · exact recorded.stored old there k
    · rw [recorded.later (Nat.le_refl _)]
      simp only [List.getElem?_replicate] at there
      split at there
      · cases there
        rfl
      · cases there

theorem Recorded.appends {index : Nat} {records : List Bytes} {data : Bytes}
    (recorded : Recorded s past) (member : l ∈ s.logs)
    (there : l.partitions[index]? = some records) :
    Recorded (s.putRecord l index data)
      (past ++ [.appended l.number ⟨⟨l.name, index⟩, records.length⟩ data]) where
  numbered {k} changed := by
    obtain ⟨k, old, rfl⟩ := List.mem_map.mp changed
    have same : (if k.number = l.number then k.push index data else k).number = k.number := by
      split <;> rfl
    rw [same]
    exact recorded.numbered old
  distinct := by
    have same : (s.putRecord l index data).logs.map Log.number = s.logs.map Log.number := by
      rw [putRecord, List.map_map]
      apply List.map_congr_left
      intro k _
      simp only [Function.comp_apply]
      split <;> rfl
    rw [same]
    exact recorded.distinct
  later {log o} late := by
    have other : l.number ≠ log := Nat.ne_of_lt (Nat.lt_of_lt_of_le (recorded.numbered member) late)
    rw [appendedAt_append, recorded.later late, appendedAt_singleton, if_neg fun both => other both.1]
    rfl
  stored {k i rs} changed here place := by
    obtain ⟨k, old, rfl⟩ := List.mem_map.mp changed
    rw [appendedAt_append, appendedAt_singleton]
    by_cases same : k.number = l.number
    · -- no other log has the number, not even one that was deleted and had the same name
      cases List.inj_on_of_nodup_map recorded.distinct old member same
      simp only [if_pos, Log.number_push, Log.name_push, Log.partitions_push] at here ⊢
      obtain ⟨old, found, rfl⟩ := Option.map_eq_some_iff.mp here
      rw [recorded.stored member found place]
      by_cases target : index = i
      · subst target
        cases Option.some.inj (found.symm.trans there)
        simp [getElem?_concat_toList]
      · simp [target]
    · simp only [if_neg same] at here ⊢
      rw [recorded.stored old here place]
      simp [Ne.symm same]

theorem Recorded.step (recorded : Recorded s past) (step : Effect s a s') :
    Recorded s' (past ++ s.events a) := by
  have none (log : Nat) (o : Offset) : appendedAt [] log o = [] := rfl
  cases step with
  | keeps _ silent => exact recorded.fewer (silent ▸ none) (List.Sublist.refl _) rfl
  | creates =>
    rw [show s.events (.create _ _) = [] from rfl, List.append_nil]
    exact recorded.creates rfl rfl
  | deletes => exact recorded.fewer none List.filter_sublist rfl
  | @appends _ _ _ w l _ _ _ found there event =>
    have number : l.number = w.log := by simpa using List.find?_some found
    rw [event, ← number]
    exact recorded.appends (List.mem_of_find?_eq_some found) there
  | turns _ turn =>
    refine recorded.fewer ?_ (List.Sublist.refl _) rfl
    cases turn with
    | looks => exact appendedAt_lookEvents s _
    | _ => exact none
  | commits _ _ commits =>
    rw [foldl_commit_eq]
    refine recorded.fewer ?_ (List.Sublist.refl _) rfl
    cases commits with
    | _ => exact none
  | leaves =>
    rw [leaveGroup_eq]
    exact recorded.fewer none (List.Sublist.refl _) rfl
  | opensAppender | closesAppender | refusesTailer | createsTailer | subscribes | closesTailer
  | setsFaults => exact recorded.fewer none (List.Sublist.refl _) rfl

theorem recorded_run {config : StoreConfig} (as : List Action) :
    Recorded (({ config } : Store).run as) (({ config } : Store).history as) := by
  have start : Recorded ({ config } : Store) [] :=
    ⟨fun member => by simp at member, List.nodup_nil, fun _ => rfl, fun member => by simp at member⟩
  exact run_invariant (fun recorded _ => recorded.step (effect _ _)) start (along_all as)

end Store

end Logbook
