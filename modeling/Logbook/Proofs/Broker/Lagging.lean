import Logbook.Proofs.Broker.Trace
import Logbook.Proofs.Success
import Logbook.Proofs.Store.Tally

/-! How far a group is behind, in sessions where no log is deleted and nobody seeks: what was appended
to each partition is what the group has committed and what it has yet to commit. -/
namespace Logbook

theorem Lag.total_eq (lags : List Lag) : Lag.total lags = (lags.map Lag.behind).sum := by
  induction lags with
  | nil => rfl
  | cons g rest ih => rw [Lag.total, ih, List.map_cons, List.sum_cons]

namespace Store

/-- What the lag of a group in a log tells after a run: for each partition, in order, how many records
were appended to it and which offset the group has committed last, which is no larger, so that the
difference is what is missing; and altogether what is missing of the records of the log. -/
structure ExactLag (s : Store) (as : List Action) (group name : String) (size : Nat)
    (lags : List Lag) : Prop where
  partitions : lags.map Lag.partition = Partition.allOf name size
  ends : ∀ g ∈ lags, g.logEnd = (appendedTo (s.history as)).count g.partition
  committed : ∀ g ∈ lags, g.committed = (s.lastCommit? as group g.partition).getD 0
  within : ∀ g ∈ lags, g.committed ≤ g.logEnd
  behind : ∀ g ∈ lags, g.behind + g.committed = g.logEnd
  total : Lag.total lags + (lags.map Lag.committed).sum =
    (appendedTo (s.history as)).countP (·.log = name)

def lagOf (s : Store) (group : String) (p : Partition) : Lag :=
  ⟨p, (s.committed? group p).getD 0, s.reach p⟩

variable {as : List Action} {config : StoreConfig} {l : Log} {name : String}

theorem exact_lag (accumulates : Along Accumulates ({ config } : Store) as)
    (found : (({ config } : Store).run as).log? name = some l) (group : String) :
    ExactLag { config } as group name l.size
      ((Partition.allOf name l.size).map ((({ config } : Store).run as).lagOf group)) := by
  have tallied := tallied_run accumulates
  have within (p : Partition) : ((({ config } : Store).run as).committed? group p).getD 0 ≤
      (({ config } : Store).run as).reach p := by
    cases committed : (({ config } : Store).run as).committed? group p with
    | none => exact Nat.zero_le _
    | some e => exact committed_within accumulates committed
  constructor
  case partitions =>
    rw [List.map_map]
    exact List.map_id _
  case ends =>
    rw [List.forall_mem_map]
    exact fun p _ => tallied.ends p
  case committed =>
    rw [List.forall_mem_map]
    intro p _
    rw [lagOf, committed?_lastCommit accumulates]
    exact congrArg (Option.getD · 0) Option.or_none
  case within =>
    rw [List.forall_mem_map]
    exact fun p _ => within p
  case behind =>
    rw [List.forall_mem_map]
    exact fun p _ => Nat.sub_add_cancel (within p)
  case total =>
    have small : ∀ p ∈ appendedTo (({ config } : Store).history as), p.log = name →
        p.index < l.size := by
      rintro p member rfl
      obtain ⟨k, there, below⟩ := tallied.there p member
      rwa [Option.some.inj (there.symm.trans found)] at below
    set lag := (({ config } : Store).run as).lagOf group
    have parts (p : Partition) : (lag p).behind + (lag p).committed =
        (appendedTo (({ config } : Store).history as)).count p :=
      (Nat.sub_add_cancel (within p)).trans (tallied.ends p)
    rw [Lag.total_eq, List.map_map, List.map_map, ← List.sum_map_add, ← sum_count_allOf small]
    exact congrArg List.sum (List.map_congr_left fun p _ => parts p)

theorem HasPartition.endOffset {s : Store} {p : Partition} (there : s.HasPartition p) :
    s.endOffset p = .ok (s.reach p) := by
  obtain ⟨l, found, within⟩ := there
  have known : s.endOffset p = .ok l.partitions[p.index].length := by
    simp only [Store.endOffset, log, found, bind, Except.bind, Log.endOffset, Log.records,
      List.getElem?_eq_getElem within, Except.map]
  rw [known, reach_of_endOffset known]

end Store

namespace Broker

variable {b : Broker} {name group : String} {l : Log}

/-- An open broker tells the lag in every log that is there. -/
theorem lag_there (opened : b.closed = false) (found : b.store.log? name = some l) :
    b.lag name group = .ok ((Partition.allOf name l.size).map (b.store.lagOf group)) := by
  have start : b.checkOpen = .ok () := by simp [checkOpen, opened]
  have sized : b.store.size name = .ok l.size := by
    simp only [Store.size, Store.log, found, Except.map]
  simp only [lag, start, sized, bind, Except.bind]
  apply mapM_eq_ok
  intro p member
  obtain ⟨rfl, below⟩ := Store.mem_allOf.mp member
  have there : b.store.HasPartition p := ⟨l, found, below⟩
  rw [there.endOffset]
  rfl

namespace Session

/-- In a session where no log is deleted and nobody seeks, the lag of a group in a log that is there is
exact. -/
theorem lag_exact {config : StoreConfig} {limits : Limits} {ops : List Operation}
    (accumulates : Store.Along Store.Accumulates { config } ((start config limits).trace ops))
    (opened : ((start config limits).run ops).broker.closed = false)
    (found : ((start config limits).run ops).broker.store.log? name = some l) (group : String) :
    ∃ lags, ((start config limits).run ops).broker.lag name group = .ok lags ∧
      Store.ExactLag { config } ((start config limits).trace ops) group name l.size lags := by
  refine ⟨_, lag_there opened found, ?_⟩
  rw [store_start] at found ⊢
  exact Store.exact_lag accumulates found group

/-- A tailer for a given partition and a subscribed one, both of one group, read and commit, go back
and read and commit again. -/
def goingBack : List Operation :=
  let given : TailerRef := ⟨"readers", 0⟩
  let member : TailerRef := ⟨"readers", 1⟩
  [.create "events" 2, .appender "events" .string none,
    .createTailer "readers" [⟨"events", 1⟩] .string none, .ask 0, .finish 0,
    .subscribe "readers" ["events"] .string none, .ask 0, .finish 0,
    .store (.appendTo 0 0 (.text "a")), .store (.appendTo 0 1 (.text "b")),
    .store (.appendTo 0 1 (.text "c")), .store (.takeOver given), .store (.look given),
    .store (.look given), .store (.commit given), .store (.takeOver member),
    .store (.look member), .store (.toEnd member), .store (.commitPartition member ⟨"events", 0⟩),
    .store (.toStart given), .store (.look given), .store (.commit given)]

theorem goingBack_exact :
    Store.Along Store.Accumulates {} ((start {} {}).trace goingBack) ∧
    ((start {} {}).run goingBack).broker.closed = false ∧
    ((start {} {}).run goingBack).broker.store.sizeOf? "events" = some 2 ∧
    ((start {} {}).run goingBack).broker.lag "events" "readers" =
      .ok [⟨⟨"events", 0⟩, 1, 1⟩, ⟨⟨"events", 1⟩, 1, 2⟩] ∧
    ∃ lags, ((start {} {}).run goingBack).broker.lag "events" "readers" = .ok lags ∧
      Store.ExactLag {} ((start {} {}).trace goingBack) "readers" "events" 2 lags := by
  have accumulates : Store.Along Store.Accumulates {} ((start {} {}).trace goingBack) := by
    decide +kernel
  have opened : ((start {} {}).run goingBack).broker.closed = false := by decide +kernel
  have sized : ((start {} {}).run goingBack).broker.store.sizeOf? "events" = some 2 := by
    decide +kernel
  obtain ⟨l, found, size⟩ := Option.map_eq_some_iff.mp sized
  refine ⟨accumulates, opened, sized, Store.ok_of_toOption (by decide +kernel), ?_⟩
  rw [← size]
  exact lag_exact accumulates opened found "readers"

end Session

end Broker

end Logbook
