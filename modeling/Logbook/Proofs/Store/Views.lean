import Logbook.Proofs.Store.Reading

/-! What one consumer group sees of a store: the logs, and of tailers, members and committed offsets
its own. What the group does can be done to the view alone, and what other groups do does not change
it. -/
namespace Logbook.Store

/-! Views that keep the logs. -/

/-- A view of a store in which the logs, the appenders and the setting are as they are. -/
structure KeepsLogs (v : Store → Store) : Prop where
  config : ∀ s, (v s).config = s.config
  logs : ∀ s, (v s).logs = s.logs
  created : ∀ s, (v s).created = s.created
  appenders : ∀ s, (v s).appenders = s.appenders
  write : ∀ s logs created, v { s with logs, created } = { v s with logs, created }

namespace KeepsLogs

variable {v : Store → Store}

theorem log? (keeps : KeepsLogs v) (s : Store) (name : String) : (v s).log? name = s.log? name := by
  simp only [Store.log?, keeps.logs]

theorem checkPartitions (keeps : KeepsLogs v) (s : Store) (ps : List Partition) :
    (v s).checkPartitions ps = s.checkPartitions ps := by
  induction ps with
  | nil => rfl
  | cons p rest ih => simp only [Store.checkPartitions, size, log, keeps.log?, ih]

theorem poll (keeps : KeepsLogs v) (s : Store) (t : Tailer) : (v s).poll t = s.poll t := by
  have first (places : List Nat) : (v s).firstRecord t places = s.firstRecord t places := by
    induction places with
    | nil => rfl
    | cons i rest ih => simp only [firstRecord, peek, keeps.log?, ih]
  simp only [Store.poll, first]

theorem moveToEnds (keeps : KeepsLogs v) (s : Store) (t : Tailer) (ps : List Partition) :
    (v s).moveToEnds t ps = s.moveToEnds t ps := by
  induction ps generalizing t with
  | nil => rfl
  | cons p rest ih => simp only [Store.moveToEnds, endOrStart, keeps.log?, ih]

theorem write_logs (keeps : KeepsLogs v) (s : Store) (logs : List Log) :
    v { s with logs } = { v s with logs } := by
  refine (keeps.write s logs s.created).trans ?_
  rw [← keeps.created s]

theorem openAppender (keeps : KeepsLogs v) (s : Store) (x : Nat) :
    (v s).openAppender x = s.openAppender x := by
  simp only [Store.openAppender, keeps.appenders]

theorem appendTo (keeps : KeepsLogs v) (s : Store) (x index : Nat) (m : Message) :
    (v s).appendTo x index m = (s.appendTo x index m).map (Prod.map id v) := by
  simp only [Store.appendTo, keeps.openAppender, logOf, keeps.logs]
  cases s.openAppender x with
  | error e => rfl
  | ok w =>
    simp only [bind, Except.bind]
    cases (defaultCodec w.codec).encode m with
    | error f => rfl
    | ok data =>
      simp only [mapError_ok]
      cases s.logs.find? (·.number = w.log) with
      | none => rfl
      | some l =>
        simp only [pushRecord, keeps.logs, bind, Except.bind]
        cases l.endOffset index with
        | error e => rfl
        | ok position =>
          exact congrArg (fun s' => Except.ok (_, s')) (keeps.write_logs s _).symm

theorem append (keeps : KeepsLogs v) (s : Store) (x : Nat) (key : String) (m : Message) :
    (v s).append x key m = (s.append x key m).map (Prod.map id v) := by
  simp only [Store.append, keeps.appenders]
  cases s.appenders[x]? with
  | none => rfl
  | some w => exact keeps.appendTo s x _ m

/-- A log is made in a view, if groups hand the partitions out anew there. -/
theorem create (keeps : KeepsLogs v) (s : Store) (name : String) (size : Nat)
    (rebalances : ∀ s', s'.groups = s.groups →
      (v s').rebalanceWatchers name = v (s'.rebalanceWatchers name)) :
    (v s).create name size = (s.create name size).map v := by
  have contains : (v s).contains name = s.contains name := by
    simp only [Store.contains, keeps.log?]
  have made := rebalances { s with
    logs := s.logs ++ [Log.mk s.created name (List.replicate size [])],
    created := s.created + 1 } rfl
  rw [keeps.write] at made
  simp only [keeps.config] at made
  simp only [Store.create, keeps.config]
  cases s.config.limits.checkLogName name with
  | error e => rfl
  | ok _ =>
    cases s.config.limits.checkPartitionCount size with
    | error e => rfl
    | ok _ =>
      simp only [mapError_ok, bind, Except.bind]
      by_cases there : s.contains name = true
      · rw [if_pos there, if_pos (contains.trans there)]
        rfl
      · rw [if_neg there, if_neg (contains ▸ there), keeps.logs, keeps.created]
        exact congrArg Except.ok made

end KeepsLogs

/-! The view of a group. -/

/-- A store without what belongs to other groups. -/
def seenBy (g : String) (s : Store) : Store :=
  { s with
    committed := s.committed.filter (·.1.group = g)
    groups := s.groups.filter (·.1 = g)
    tailers := s.tailers.filter (·.1.group = g) }

theorem keepsLogs_seenBy (g : String) : KeepsLogs (seenBy g) :=
  ⟨fun _ => rfl, fun _ => rfl, fun _ => rfl, fun _ => rfl, fun _ _ _ => rfl⟩

variable {s : Store} {g h : String} {r : TailerRef} {t : Tailer} {p : Partition}

/-! What is looked up in the view. -/

@[simp] theorem seenBy_config (s : Store) (g : String) : (s.seenBy g).config = s.config := rfl

@[simp] theorem seenBy_appenders (s : Store) (g : String) :
    (s.seenBy g).appenders = s.appenders := rfl

@[simp] theorem seenBy_failNextTailer (s : Store) (g : String) :
    (s.seenBy g).failNextTailer = s.failNextTailer := rfl

@[simp] theorem log_seenBy (s : Store) (g name : String) : (s.seenBy g).log name = s.log name := rfl

@[simp] theorem openAppender_seenBy (s : Store) (g : String) (a : Nat) :
    (s.seenBy g).openAppender a = s.openAppender a := rfl

theorem tailer?_seenBy (own : r.group = g) : (s.seenBy g).tailer? r = s.tailer? r :=
  (lookup_filter_key s.tailers (fun q => decide (q.group = g)) r).trans
    (if_pos (by simpa using own))

theorem openTailer_seenBy (own : r.group = g) : (s.seenBy g).openTailer r = s.openTailer r := by
  simp only [openTailer, tailer?_seenBy own]

theorem isClosedTailer_seenBy (own : r.group = g) :
    (s.seenBy g).isClosedTailer r = s.isClosedTailer r := by
  simp only [isClosedTailer, tailer?_seenBy own]

theorem assignedTailer_seenBy (own : r.group = g) :
    (s.seenBy g).assignedTailer r p = s.assignedTailer r p := by
  simp only [assignedTailer, openTailer_seenBy own]

theorem committed?_seenBy (s : Store) (g : String) (p : Partition) :
    (s.seenBy g).committed? g p = s.committed? g p :=
  (lookup_filter_key s.committed (fun k => decide (k.group = g)) ⟨g, p⟩).trans (if_pos (by simp))

theorem group?_seenBy (s : Store) (g : String) : (s.seenBy g).group? g = s.group? g :=
  (lookup_filter_key s.groups (fun name => decide (name = g)) g).trans (if_pos (by simp))

theorem assignmentOf_seenBy (own : r.group = g) :
    (s.seenBy g).assignmentOf r = s.assignmentOf r := by
  subst own
  simp only [assignmentOf, group?_seenBy]

theorem follow_seenBy (own : r.group = g) (t : Tailer) :
    (s.seenBy g).follow r t = s.follow r t := by
  subst own
  have committed : (s.seenBy r.group).committed? r.group = s.committed? r.group :=
    funext fun p => committed?_seenBy s r.group p
  simp only [follow, assignmentOf_seenBy rfl, committed]

theorem checkPartitions_seenBy (s : Store) (g : String) (ps : List Partition) :
    (s.seenBy g).checkPartitions ps = s.checkPartitions ps :=
  (keepsLogs_seenBy g).checkPartitions s ps

theorem poll_seenBy (s : Store) (g : String) (t : Tailer) : (s.seenBy g).poll t = s.poll t :=
  (keepsLogs_seenBy g).poll s t

theorem moveToEnds_seenBy (s : Store) (g : String) (t : Tailer) (ps : List Partition) :
    (s.seenBy g).moveToEnds t ps = s.moveToEnds t ps := (keepsLogs_seenBy g).moveToEnds s t ps

/-! What is changed in the view. -/

theorem seenBy_setTailer (s : Store) (g : String) (r : TailerRef) (t : Tailer) :
    (s.setTailer r t).seenBy g = (s.seenBy g).setTailer r t := by
  have kept (e : TailerRef × Tailer) : (if e.1 = r then (r, t) else e).1 = e.1 := by
    split
    · exact Eq.symm ‹_›
    · rfl
  simp only [seenBy, setTailer, List.filter_map, Function.comp_def, kept]

/-- There is nothing to replace when a tailer is not seen. -/
theorem setTailer_unseen (other : r.group ≠ g) (t : Tailer) :
    (s.setTailer r t).seenBy g = s.seenBy g := by
  rw [seenBy_setTailer]
  simp only [setTailer]
  congr 1
  refine (List.map_congr_left fun e member => ?_).trans (List.map_id _)
  have seen : e.1.group = g := by simpa using (List.mem_filter.mp member).2
  exact if_neg fun same => other (by rw [← same, seen])

theorem seenBy_commit (s : Store) (g : String) (p : Partition) (k : Nat) :
    (s.commit g p k).seenBy g = (s.seenBy g).commit g p k := by
  simp only [seenBy, commit, List.filter_cons, decide_true, if_true, List.filter_filter,
    Bool.and_comm]

theorem commit_unseen (other : h ≠ g) (p : Partition) (k : Nat) :
    (s.commit h p k).seenBy g = s.seenBy g := by
  have gone (e : GroupPartition × Nat) :
      (decide (e.1.group = g) && decide (e.1 ≠ (⟨h, p⟩ : GroupPartition))) =
        decide (e.1.group = g) := by
    by_cases seen : e.1.group = g
    · have apart : e.1 ≠ ⟨h, p⟩ := fun same => other (by rw [← seen, same])
      simp [seen, apart]
    · simp [seen]
  simp only [seenBy, commit, List.filter_cons, other, decide_false, Bool.false_eq_true, if_false,
    List.filter_filter, gone]

theorem seenBy_foldl_commit (s : Store) (g : String) (ps : List Partition) (f : Partition → Nat) :
    (ps.foldl (fun s p => s.commit g p (f p)) s).seenBy g =
      ps.foldl (fun s p => s.commit g p (f p)) (s.seenBy g) := by
  induction ps generalizing s with
  | nil => rfl
  | cons p rest ih => rw [List.foldl_cons, ih, seenBy_commit, List.foldl_cons]

theorem foldl_commit_unseen (other : h ≠ g) (ps : List Partition) (f : Partition → Nat) :
    (ps.foldl (fun s p => s.commit h p (f p)) s).seenBy g = s.seenBy g := by
  induction ps generalizing s with
  | nil => rfl
  | cons p rest ih => rw [List.foldl_cons, ih, commit_unseen other]

theorem seenBy_putGroup (s : Store) (g : String) (group : Group) :
    (s.putGroup g group).seenBy g = (s.seenBy g).putGroup g group := by
  simp only [seenBy, putGroup]
  cases group.members.isEmpty with
  | true => simp only [if_true, List.filter_filter, Bool.and_comm]
  | false =>
    simp only [Bool.false_eq_true, if_false, List.filter_cons, decide_true, if_true,
      List.filter_filter, Bool.and_comm]

theorem putGroup_unseen (other : h ≠ g) (group : Group) :
    (s.putGroup h group).seenBy g = s.seenBy g := by
  have gone (e : String × Group) : (decide (e.1 = g) && decide (e.1 ≠ h)) = decide (e.1 = g) := by
    by_cases seen : e.1 = g
    · simp [seen, other.symm]
    · simp [seen]
  simp only [seenBy, putGroup]
  cases group.members.isEmpty with
  | true => simp only [if_true, List.filter_filter, gone]
  | false =>
    simp only [Bool.false_eq_true, if_false, List.filter_cons, other, decide_false,
      List.filter_filter, gone]

theorem seenBy_rebalanceWatchers (s : Store) (g name : String) :
    (s.rebalanceWatchers name).seenBy g = (s.seenBy g).rebalanceWatchers name := by
  have kept (e : String × Group) : (if e.2.watches name then
      (e.1, e.2.rebalance s.sizeOf?) else e).1 = e.1 := by
    split <;> rfl
  simp only [seenBy, rebalanceWatchers, List.filter_map, Function.comp_def, kept]
  rfl

theorem seenBy_addTailer (s : Store) (g : String) (t : Tailer) :
    (s.seenBy g).addTailer g t = ((s.addTailer g t).1, (s.addTailer g t).2.seenBy g) := by
  simp only [addTailer, seenBy, List.countP_filter, Bool.and_self, List.filter_append,
    List.filter_cons, decide_true, if_true, List.filter_nil]

theorem addTailer_unseen (other : h ≠ g) (t : Tailer) :
    (s.addTailer h t).2.seenBy g = s.seenBy g := by
  simp only [addTailer, seenBy, List.filter_append, List.filter_cons, other, decide_false,
    Bool.false_eq_true, if_false, List.filter_nil, List.append_nil]

theorem seenBy_leaveGroup (own : r.group = g) :
    (s.leaveGroup r).seenBy g = (s.seenBy g).leaveGroup r := by
  subst own
  simp only [leaveGroup, group?_seenBy]
  cases s.group? r.group with
  | none => rfl
  | some group => exact seenBy_putGroup s r.group _

theorem leaveGroup_unseen (other : r.group ≠ g) : (s.leaveGroup r).seenBy g = s.seenBy g := by
  simp only [leaveGroup]
  cases s.group? r.group with
  | none => rfl
  | some group => exact putGroup_unseen other _

/-! What is done to the logs and appenders. -/

theorem create_seenBy (s : Store) (g name : String) (size : Nat) :
    (s.seenBy g).create name size = (s.create name size).map (seenBy g) :=
  (keepsLogs_seenBy g).create s name size fun s' _ => (seenBy_rebalanceWatchers s' g name).symm

theorem delete_seenBy (s : Store) (g name : String) :
    (s.seenBy g).delete name = ((s.delete name).1, (s.delete name).2.seenBy g) := by
  have swapped : (s.committed.filter (·.1.group = g)).filter (·.1.partition.log ≠ name) =
      (s.committed.filter (·.1.partition.log ≠ name)).filter (·.1.group = g) := by
    simp only [List.filter_filter, Bool.and_comm]
  have allowed : ((s.seenBy g).config.canDelete && (s.seenBy g).contains name) =
      (s.config.canDelete && s.contains name) := rfl
  simp only [delete]
  split
  · rw [if_pos (allowed.symm.trans ‹_›)]
    simp only [seenBy_rebalanceWatchers]
    simp only [seenBy, swapped]
  · rw [if_neg (allowed ▸ ‹_›)]

theorem createAppender_seenBy (s : Store) (g name : String) (type : MessageType)
    (codec : Option Codec) : (s.seenBy g).createAppender name type codec =
      (s.createAppender name type codec).map (Prod.map id (seenBy g)) := by
  simp only [createAppender, log_seenBy]
  cases s.log name <;> rfl

theorem appendTo_seenBy (s : Store) (g : String) (a index : Nat) (m : Message) :
    (s.seenBy g).appendTo a index m = (s.appendTo a index m).map (Prod.map id (seenBy g)) :=
  (keepsLogs_seenBy g).appendTo s a index m

theorem append_seenBy (s : Store) (g : String) (a : Nat) (key : String) (m : Message) :
    (s.seenBy g).append a key m = (s.append a key m).map (Prod.map id (seenBy g)) :=
  (keepsLogs_seenBy g).append s a key m

theorem closeAppender_seenBy (s : Store) (g : String) (a : Nat) :
    (s.seenBy g).closeAppender a = ((s.closeAppender a).1, (s.closeAppender a).2.seenBy g) := by
  simp only [closeAppender, openAppender_seenBy]
  cases s.openAppender a <;> rfl

/-! What the group does with its tailers. -/

theorem createTailer_seenBy (s : Store) (g : String) (ps : List Partition) (type : MessageType)
    (codec : Option Codec) : (s.seenBy g).createTailer g ps type codec =
      ((s.createTailer g ps type codec).1, (s.createTailer g ps type codec).2.seenBy g) := by
  simp only [createTailer, checkPartitions_seenBy, seenBy_failNextTailer, committed?_seenBy,
    seenBy_addTailer]
  cases s.checkPartitions ps with
  | error e => rfl
  | ok _ =>
    cases s.failNextTailer <;> rfl

theorem subscribe_seenBy (s : Store) (g : String) (names : List String) (type : MessageType)
    (codec : Option Codec) : (s.seenBy g).subscribe g names type codec =
      (s.subscribe g names type codec).map (Prod.map id (seenBy g)) := by
  simp only [subscribe, seenBy_config, group?_seenBy, seenBy_addTailer]
  cases s.config.canSubscribe with
  | false => rfl
  | true =>
    cases s.config.limits.checkGroupName g with
    | error e => rfl
    | ok _ =>
      simp only [Bool.not_true, Bool.false_eq_true, if_false, mapError_ok, bind, Except.bind]
      exact congrArg (fun s' => Except.ok (_, s')) (seenBy_putGroup _ g _).symm

theorem closeTailer_seenBy (own : r.group = g) :
    (s.seenBy g).closeTailer r = ((s.closeTailer r).1, (s.closeTailer r).2.seenBy g) := by
  simp only [closeTailer, openTailer_seenBy own]
  cases s.openTailer r with
  | error e => rfl
  | ok t =>
    simp only [takeCloseFault]
    cases t.subscribed with
    | false =>
      simp only [Bool.false_eq_true, if_false, ← seenBy_setTailer]
      rfl
    | true =>
      simp only [if_true, ← seenBy_setTailer, ← seenBy_leaveGroup own]
      rfl

theorem takeOver_seenBy (own : r.group = g) :
    (s.seenBy g).takeOver r = (s.takeOver r).map (Prod.map id (seenBy g)) := by
  simp only [takeOver, openTailer_seenBy own, follow_seenBy own, ← seenBy_setTailer]
  cases s.openTailer r <;> rfl

theorem look_seenBy (own : r.group = g) :
    (s.seenBy g).look r = ((s.look r).1, (s.look r).2.seenBy g) := by
  simp only [look, tailer?_seenBy own, poll_seenBy, ← seenBy_setTailer]
  cases s.tailer? r <;> rfl

theorem read_seenBy (own : r.group = g) :
    (s.seenBy g).read r = ((s.read r).1, (s.read r).2.1, (s.read r).2.2.seenBy g) := by
  simp only [read, takeOver_seenBy own]
  cases s.takeOver r with
  | error e => rfl
  | ok taken => simp only [Except.map, Prod.map, look_seenBy own, id_eq]

theorem commitAll_seenBy (own : r.group = g) :
    (s.seenBy g).commitAll r = (s.commitAll r).map (seenBy g) := by
  subst own
  simp only [commitAll, openTailer_seenBy, ← seenBy_foldl_commit]
  cases s.openTailer r <;> rfl

theorem commitPartition_seenBy (own : r.group = g) (p : Partition) :
    (s.seenBy g).commitPartition r p = (s.commitPartition r p).map (Prod.map id (seenBy g)) := by
  subst own
  simp only [commitPartition, assignedTailer_seenBy, ← seenBy_commit]
  cases s.assignedTailer r p <;> rfl

theorem moveAll_seenBy (own : r.group = g) (position : Partition → Nat) :
    (s.seenBy g).moveAll r position = (s.moveAll r position).map (seenBy g) := by
  simp only [moveAll, openTailer_seenBy own, ← seenBy_setTailer]
  cases s.openTailer r <;> rfl

theorem toLastCommitted_seenBy (own : r.group = g) :
    (s.seenBy g).toLastCommitted r = (s.toLastCommitted r).map (seenBy g) := by
  subst own
  simp only [toLastCommitted, committed?_seenBy, moveAll_seenBy]

theorem toEnd_seenBy (own : r.group = g) :
    (s.seenBy g).toEnd r = ((s.toEnd r).1, (s.toEnd r).2.seenBy g) := by
  simp only [toEnd, openTailer_seenBy own, moveToEnds_seenBy, ← seenBy_setTailer]
  cases s.openTailer r <;> rfl

theorem seek_seenBy (own : r.group = g) (o : Offset) :
    (s.seenBy g).seek r o = (s.seek r o).map (seenBy g) := by
  simp only [seek, assignedTailer_seenBy own, ← seenBy_setTailer]
  cases s.assignedTailer r o.partition <;> rfl

/-! Actions. -/

/-- The group for which an action opens a tailer, or with whose tailer it reads, commits, moves or
closes. -/
def Action.group? : Action → Option String
  | .createTailer group _ _ _ | .subscribe group _ _ _ => some group
  | .takeOver r | .look r | .commit r | .commitPartition r _ | .toStart r | .toEnd r
  | .toLastCommitted r | .seek r _ | .closeTailer r => some r.group
  | _ => none

theorem Action.own_createTailer (g : String) (ps : List Partition) (type : MessageType)
    (codec : Option Codec) : ∀ h, (createTailer g ps type codec).group? = some h → h = g := by
  intro h same
  exact (Option.some.inj same).symm

theorem Action.own_subscribe (g : String) (names : List String) (type : MessageType)
    (codec : Option Codec) : ∀ h, (subscribe g names type codec).group? = some h → h = g := by
  intro h same
  exact (Option.some.inj same).symm

theorem settle_seenBy (s : Store) (g : String) (outcome : Outcome Store) :
    (s.seenBy g).settle (outcome.map (seenBy g)) = (s.settle outcome).seenBy g := by
  cases outcome <;> rfl

theorem settle_snd_seenBy (s : Store) (g : String) (outcome : Outcome (α × Store)) :
    (s.seenBy g).settle ((outcome.map (Prod.map id (seenBy g))).map (·.2)) =
      (s.settle (outcome.map (·.2))).seenBy g := by
  cases outcome <;> rfl

/-- What is done to the logs, and what the group does, can be done to the view alone. -/
theorem act_seenBy (s : Store) {a : Action} (own : ∀ h, a.group? = some h → h = g) :
    (s.seenBy g).act a = (s.act a).seenBy g := by
  cases a with
  | create name size => simp only [act, create_seenBy, settle_seenBy]
  | delete name => simp only [act, delete_seenBy]
  | openAppender name type codec => simp only [act, createAppender_seenBy, settle_snd_seenBy]
  | append a key m => simp only [act, append_seenBy, settle_snd_seenBy]
  | appendTo a index m => simp only [act, appendTo_seenBy, settle_snd_seenBy]
  | closeAppender a => simp only [act, closeAppender_seenBy]
  | createTailer group ps type codec =>
    obtain rfl : group = g := own group rfl
    simp only [act, createTailer_seenBy]
  | subscribe group names type codec =>
    obtain rfl : group = g := own group rfl
    simp only [act, subscribe_seenBy, settle_snd_seenBy]
  | takeOver r => simp only [act, takeOver_seenBy (own _ rfl), settle_snd_seenBy]
  | look r => simp only [act, look_seenBy (own _ rfl)]
  | commit r => simp only [act, commitAll_seenBy (own _ rfl), settle_seenBy]
  | commitPartition r p => simp only [act, commitPartition_seenBy (own _ rfl), settle_snd_seenBy]
  | toStart r => simp only [act, toStart, moveAll_seenBy (own _ rfl), settle_seenBy]
  | toEnd r => simp only [act, toEnd_seenBy (own _ rfl)]
  | toLastCommitted r => simp only [act, toLastCommitted_seenBy (own _ rfl), settle_seenBy]
  | seek r o => simp only [act, seek_seenBy (own _ rfl), settle_seenBy]
  | closeTailer r => simp only [act, closeTailer_seenBy (own _ rfl)]
  | setFaults tailer close => rfl

structure Faultless (s : Store) : Prop where
  tailer : s.failNextTailer = false
  close : s.failNextClose = false

variable {s' : Store} {a : Action}

theorem Effect.faultless (step : Effect s a s') (faultless : s.Faultless)
    (obeys : ∀ tailer close, a ≠ .setFaults tailer close) : s'.Faultless := by
  obtain ⟨tailer, close⟩ := faultless
  cases step with
  | setsFaults tailer close => exact absurd rfl (obeys tailer close)
  | commits =>
    rw [foldl_commit_eq]
    exact ⟨tailer, close⟩
  | leaves =>
    rw [leaveGroup_eq]
    exact ⟨tailer, rfl⟩
  | refusesTailer => exact ⟨rfl, close⟩
  | closesAppender | closesTailer => exact ⟨tailer, rfl⟩
  | keeps | creates | deletes | opensAppender | appends | createsTailer | subscribes | turns =>
    exact ⟨tailer, close⟩

theorem Turn.group {t' : Tailer} (turn : Turn s r t a t') : a.group? = some r.group := by
  cases turn <;> rfl

theorem Commits.group {ps : List Partition} (commits : Commits r t a ps) :
    a.group? = some r.group := by
  cases commits <;> rfl

/-- What is appended is not the doing of any group. -/
theorem appends_group {log : Nat} {o : Offset} {data : Bytes}
    (event : s.events a = [.appended log o data]) : a.group? = none := by
  cases a with
  | look r =>
    simp only [events, lookEvents] at event
    split at event
    · cases event
    · split at event <;> cases event
  | create | delete | openAppender | append | appendTo | closeAppender | setFaults => rfl
  | createTailer | subscribe | takeOver | commit | commitPartition | toStart | toEnd
  | toLastCommitted | seek | closeTailer => cases event

/-- What another group does is not seen, as long as it does not take a failure upon itself. -/
theorem Effect.unseen (step : Effect s a s') (faultless : s.Faultless)
    (theirs : a.group? = some h) (other : h ≠ g) : s'.seenBy g = s.seenBy g := by
  cases step with
  | keeps => rfl
  | creates | deletes | opensAppender | closesAppender | setsFaults => cases theirs
  | appends _ _ _ event => cases theirs.symm.trans (appends_group event)
  | refusesTailer => simp only [seenBy, faultless.tailer]
  | createsTailer =>
    cases theirs
    exact addTailer_unseen other _
  | subscribes =>
    cases theirs
    exact (putGroup_unseen other _).trans (addTailer_unseen other _)
  | turns _ turn =>
    cases theirs.symm.trans turn.group
    exact setTailer_unseen other _
  | commits _ _ commits =>
    cases theirs.symm.trans commits.group
    exact foldl_commit_unseen other _ _
  | @closesTailer r t =>
    cases theirs
    have closed := setTailer_unseen (s := s) other { t with closed := true }
    rw [← closed]
    simp only [seenBy, setTailer, faultless.close]
  | @leaves r t =>
    cases theirs
    have left := (leaveGroup_unseen other).trans
      (setTailer_unseen (s := s) other { t with closed := true })
    rw [← left, leaveGroup_eq]
    simp only [seenBy, setTailer, faultless.close]

def Action.concerns (g : String) (a : Action) : Bool := a.group?.all (· = g)

theorem Action.concerns_iff : a.concerns g = true ↔ ∀ h, a.group? = some h → h = g := by
  simp [concerns, Option.all_eq_true]

theorem faultless_act (faultless : s.Faultless)
    (obeys : ∀ tailer close, a ≠ .setFaults tailer close) : (s.act a).Faultless :=
  (effect s a).faultless faultless obeys

theorem faultless_run (faultless : s.Faultless) {as : List Action}
    (obeys : ∀ a ∈ as, ∀ tailer close, a ≠ .setFaults tailer close) : (s.run as).Faultless := by
  induction as generalizing s with
  | nil => exact faultless
  | cons a as ih =>
    exact ih (faultless_act faultless (obeys a List.mem_cons_self))
      fun b member => obeys b (List.mem_cons_of_mem _ member)

/-- Of a run, a group sees what concerns it. -/
theorem run_seenBy (faultless : s.Faultless) {as : List Action}
    (obeys : ∀ a ∈ as, ∀ tailer close, a ≠ .setFaults tailer close) :
    (s.run as).seenBy g = (s.seenBy g).run (as.filter (·.concerns g)) := by
  induction as generalizing s with
  | nil => rfl
  | cons a as ih =>
    have later := ih (faultless_act faultless (obeys a List.mem_cons_self))
      fun b member => obeys b (List.mem_cons_of_mem _ member)
    rw [run_cons, later, List.filter_cons]
    cases concerned : a.concerns g with
    | true =>
      rw [if_pos rfl, run_cons, act_seenBy s (Action.concerns_iff.mp concerned)]
    | false =>
      have theirs : ∃ h, a.group? = some h ∧ h ≠ g := by
        simpa [Action.concerns, Option.all_eq_false] using concerned
      obtain ⟨h, theirs, other⟩ := theirs
      rw [if_neg Bool.false_ne_true, (effect s a).unseen faultless theirs other]

/-- A read of another group's tailer is not seen. -/
theorem read_unseen (faultless : s.Faultless) (other : r.group ≠ g) :
    (s.read r).2.2.seenBy g = s.seenBy g := by
  obtain ⟨as, performs⟩ := read_performs s r
  have parts (a : Action) (member : a ∈ as) : a.group? = some r.group := by
    rcases performs.parts a member with rfl | rfl
    · rfl
    · rfl
  have nothing : as.filter (·.concerns g) = [] := by
    apply List.filter_eq_nil_iff.mpr
    intro a member
    simp [Action.concerns, parts a member, other]
  have seen : (s.run as).seenBy g = (s.seenBy g).run (as.filter (·.concerns g)) := by
    apply run_seenBy faultless
    rintro a member tailer close rfl
    cases parts _ member
  rw [← performs.final, seen, nothing, run_nil]

end Logbook.Store
