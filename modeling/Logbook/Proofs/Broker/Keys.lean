import Logbook.Proofs.Broker.Trace
import Logbook.Proofs.Store.AppendOnly
import Logbook.Proofs.Store.Since

/-! Records of one key stay in order. Every log has partitions, so that there is one for each key, and
which one it is depends on nothing but the key and the size of the log. -/
namespace Logbook

def Offset.ComesBefore (o o' : Offset) : Prop :=
  o'.partition = o.partition ∧ o.position < o'.position

namespace Store

/-- The offset that an action answers if it appends by a key to the log of a number. -/
def keyedBy (s : Store) (number : Nat) (key : String) : Action → List Offset
  | .append x k m =>
    match s.openAppender x, s.append x k m with
    | .ok w, .ok (o, _) => if w.log = number ∧ k = key then [o] else []
    | _, _ => []
  | _ => []

def keyedOffsets (s : Store) (number : Nat) (key : String) : List Action → List Offset
  | [] => []
  | a :: as => s.keyedBy number key a ++ (s.act a).keyedOffsets number key as

structure Sized (s : Store) : Prop where
  logs : ∀ l ∈ s.logs, 0 < l.size
  appenders : ∀ w ∈ s.appenders, 0 < w.size

variable {s s' : Store} {a : Action} {as : List Action} {number : Nat} {key : String} {o : Offset}

/-! Sizes. -/

theorem partitionOfKey_lt {size : Nat} (positive : 0 < size) : partitionOfKey key size < size :=
  Nat.mod_lt _ positive

/-- Whatever the limits are, a count that they allow is positive. -/
theorem checkPartitionCount_ok {limits : Limits} {count : Nat} :
    limits.checkPartitionCount count = .ok () ↔ 0 < count ∧ count ≤ limits.logPartitionsMax := by
  unfold Limits.checkPartitionCount
  by_cases none : count = 0
  · simp [none]
  · by_cases many : limits.logPartitionsMax < count
    · simp [none, many]
    · simp [none, many, Nat.pos_of_ne_zero, Nat.le_of_not_lt]

theorem Sized.step (sized : Sized s) (step : Effect s a s') : Sized s' := by
  cases step with
  | @creates name size counted =>
    refine ⟨fun l member => ?_, sized.appenders⟩
    rcases List.mem_append.mp member with old | new
    · exact sized.logs l old
    · cases List.mem_singleton.mp new
      rw [Log.size, List.length_replicate]
      exact (checkPartitionCount_ok.mp counted).1
  | deletes =>
    exact ⟨fun l member => sized.logs l (List.mem_of_mem_filter member), sized.appenders⟩
  | @opensAppender name l type codec found =>
    refine ⟨sized.logs, fun w member => ?_⟩
    rcases List.mem_append.mp member with old | new
    · exact sized.appenders w old
    · cases List.mem_singleton.mp new
      exact sized.logs l (log?_mem found).1
  | @appends _ _ index w l _ data =>
    refine ⟨fun l' member => ?_, sized.appenders⟩
    obtain ⟨k, old, grows⟩ := growsTo_putRecord index data member
    rw [grows.size]
    exact sized.logs k old
  | @closesAppender x w opened =>
    refine ⟨sized.logs, fun v member => ?_⟩
    rcases List.mem_or_eq_of_mem_set member with old | rfl
    · exact sized.appenders v old
    · exact sized.appenders w (List.mem_of_getElem? (openAppender_ok.mp opened).1)
  | commits =>
    rw [foldl_commit_eq]
    exact ⟨sized.logs, sized.appenders⟩
  | leaves =>
    rw [leaveGroup_eq]
    exact ⟨sized.logs, sized.appenders⟩
  | keeps | refusesTailer | createsTailer | subscribes | turns | closesTailer | setsFaults =>
    exact ⟨sized.logs, sized.appenders⟩

theorem sized_run {config : StoreConfig} (as : List Action) :
    Sized (({ config } : Store).run as) := by
  have start : Sized ({ config } : Store) :=
    ⟨fun _ member => (by cases member), fun _ member => (by cases member)⟩
  exact @run_invariant (fun s _ => Sized s) _ (fun sized _ => sized.step (effect _ _)) _ [] as
    start (along_all as)

/-! Appending by a key. -/

/-- An open appender whose log is there appends by any key what it can encode. -/
theorem append_there {x : Nat} {w : Appender} {l : Log} (named : Named s) (sized : Sized s)
    (opened : s.openAppender x = .ok w) (there : l ∈ s.logs) (same : l.number = w.log)
    (key : String) (m : Message) :
    (∃ f, (defaultCodec w.codec).encode m = .error f ∧
        s.append x key m = .error (.codec (.encode (defaultCodec w.codec) f))) ∨
      ∃ position s', s.append x key m =
        .ok (⟨⟨l.name, partitionOfKey key l.size⟩, position⟩, s') := by
  rw [append_eq (openAppender_ok.mp opened).1, ← (named.opened opened there same).2]
  rcases appendTo_there named opened there same (partitionOfKey_lt (sized.logs l there)) m with
    ⟨f, refused, failed⟩ | ⟨data, position, s', coded, done⟩
  · exact .inl ⟨f, refused, failed⟩
  · exact .inr ⟨position, s', done⟩

/-- An append by a key comes to the end of the partition of the key. -/
theorem keyedBy_stored (named : Named s) (member : o ∈ s.keyedBy number key a) :
    ∃ l rs data, l ∈ s.logs ∧ l.number = number ∧
      o = ⟨⟨l.name, partitionOfKey key l.size⟩, rs.length⟩ ∧
      l.partitions[partitionOfKey key l.size]? = some rs ∧
      l.push (partitionOfKey key l.size) data ∈ (s.act a).logs := by
  cases a with
  | append x k m =>
    simp only [keyedBy] at member
    split at member
    · rename_i w p next opened answer
      split at member
      · rename_i both
        obtain ⟨rfl, rfl⟩ := both
        obtain rfl := List.mem_singleton.mp member
        rw [act, answer]
        rw [append_eq (openAppender_ok.mp opened).1] at answer
        rcases appendTo_cases named x (partitionOfKey k w.size) m with ⟨e, failed, -⟩ |
            ⟨v, l, rs, data, opened', there, number, -, stored, whole⟩
        · cases answer.symm.trans failed
        · cases opened.symm.trans opened'
          cases answer.symm.trans whole
          rw [← (named.opened opened there number).2] at stored ⊢
          refine ⟨l, rs, data, there, number, rfl, stored, ?_⟩
          exact List.mem_map.mpr ⟨l, there, if_pos rfl⟩
      · cases member
    · cases member
  | _ => cases member

theorem keyedOffsets_split (member : o ∈ s.keyedOffsets number key as) :
    ∃ before a after, as = before ++ a :: after ∧ o ∈ (s.run before).keyedBy number key a := by
  induction as generalizing s with
  | nil => cases member
  | cons a as ih =>
    rcases List.mem_append.mp member with now | later
    · exact ⟨[], a, as, rfl, now⟩
    · obtain ⟨before, b, after, rfl, there⟩ := ih later
      exact ⟨a :: before, b, after, rfl, there⟩

theorem pairwise_keyedBy (s : Store) (number : Nat) (key : String) (a : Action)
    (R : Offset → Offset → Prop) : (s.keyedBy number key a).Pairwise R := by
  unfold keyedBy
  split
  · split
    · split
      · exact List.pairwise_singleton _ _
      · exact List.Pairwise.nil
    · exact List.Pairwise.nil
  · exact List.Pairwise.nil

/-- What is appended later with a key comes later in the partition of the key. -/
theorem keyedOffsets_ordered (config : StoreConfig) (number : Nat) (key : String)
    (done as : List Action) : ((({ config } : Store).run done).keyedOffsets number key as).Pairwise
      Offset.ComesBefore := by
  induction as generalizing done with
  | nil => exact List.Pairwise.nil
  | cons a as ih =>
    have later := ih (done ++ [a])
    have recorded : Recorded ((({ config } : Store).run done).act a) _ :=
      run_concat _ done a ▸ recorded_run (done ++ [a])
    rw [run_concat] at later
    rw [keyedOffsets, List.pairwise_append]
    refine ⟨pairwise_keyedBy _ _ _ a _, later, ?_⟩
    intro o now o' member
    obtain ⟨l, rs, data, -, first, rfl, there, stored⟩ := keyedBy_stored (named_run done) now
    obtain ⟨before, b, after, rfl, next⟩ := keyedOffsets_split member
    have named : Named (((({ config } : Store).run done).act a).run before) := by
      have whole : Named (({ config } : Store).run (done ++ a :: before)) := named_run _
      rwa [run_append] at whole
    obtain ⟨l', rs', -, stored', second, rfl, there', -⟩ := keyedBy_stored named next
    -- both went to the same log, which holds the first record by then
    rcases (logs_run _ before).2 l' stored' with ⟨k, old, grows⟩ | new
    · have numbers : k.number = (l.push (partitionOfKey key l.size) data).number :=
        grows.number.symm.trans (second.trans first.symm)
      obtain rfl := List.inj_on_of_nodup_map recorded.distinct old stored numbers
      have size : l'.size = l.size := grows.size.trans (l.size_push _ data)
      obtain ⟨more, final⟩ := grows.records (partitionOfKey key l.size) (rs ++ [data]) (by
        rw [Log.partitions_push, there, Option.map_some, if_pos rfl])
      rw [size, final] at there'
      refine ⟨?_, ?_⟩
      · rw [size, grows.name]
        rfl
      · change rs.length < rs'.length
        rw [← Option.some.inj there', List.length_append, List.length_append, List.length_singleton]
        omega
    · have below := recorded.numbered stored
      rw [Log.number_push, first, ← second] at below
      omega

/-- What keys mean in a run. Every log has at least one partition, as every appender knows, so that the
partition of a key is one of those. An open appender whose log is there appends what it can encode
there. And what is appended with one key to one log, by whatever appender, comes to one partition, each
record after those before. -/
structure KeysOrdered (start : Store) (as : List Action) : Prop where
  sizes : ∀ l ∈ (start.run as).logs, 0 < l.size
  reduced : ∀ w ∈ (start.run as).appenders, 0 < w.size
  appends : ∀ x w l key m, (start.run as).openAppender x = .ok w → l ∈ (start.run as).logs →
    l.number = w.log → partitionOfKey key l.size < l.size ∧
      ((∃ f, (defaultCodec w.codec).encode m = .error f ∧ (start.run as).append x key m =
          .error (.codec (.encode (defaultCodec w.codec) f))) ∨
        ∃ position s', (start.run as).append x key m =
          .ok (⟨⟨l.name, partitionOfKey key l.size⟩, position⟩, s'))
  ordered : ∀ number key, (start.keyedOffsets number key as).Pairwise Offset.ComesBefore

end Store

/-- Whatever the limits of the broker and of its store, records of one key stay in order. -/
theorem Broker.Session.keys_ordered (config : StoreConfig) (limits : Limits)
    (ops : List Operation) :
    Store.KeysOrdered { config } ((start config limits).trace ops) := by
  have sized : Store.Sized (({ config } : Store).run ((start config limits).trace ops)) :=
    Store.sized_run _
  have named : Store.Named (({ config } : Store).run ((start config limits).trace ops)) :=
    Store.named_run _
  constructor
  case sizes => exact sized.logs
  case reduced => exact sized.appenders
  case appends =>
    intro x w l key m opened there same
    exact ⟨Store.partitionOfKey_lt (sized.logs l there),
      Store.append_there named sized opened there same key m⟩
  case ordered =>
    intro number key
    exact Store.keyedOffsets_ordered config number key [] _

end Logbook
