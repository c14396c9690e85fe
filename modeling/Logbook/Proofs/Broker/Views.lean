import Logbook.Proofs.Broker.FailedCreation
import Logbook.Proofs.Store.Views

/-! What one consumer group sees of a broker: the view of the store, the memoized appenders, and
whether it is open. What is on record of tailers is seen only in which keys are refused, and in
which tailers are closed with the broker. -/
namespace Logbook

namespace Store

variable {g : String}

theorem fst_seenBy (outcome : Outcome (α × Store)) :
    (outcome.map (Prod.map id (seenBy g))).map (·.1) = outcome.map (·.1) := by
  cases outcome <;> rfl

theorem unit_seenBy (outcome : Outcome Store) :
    (outcome.map (seenBy g)).map (fun _ => ()) = outcome.map fun _ => () := by
  cases outcome <;> rfl

/-- What is done to the logs, and what the group does, is answered by the view. -/
theorem answer_seenBy (s : Store) {a : Action} (own : ∀ h, a.group? = some h → h = g) :
    (s.seenBy g).answer a = s.answer a := by
  cases a with
  | create name size => simp only [answer, create_seenBy, unit_seenBy]
  | delete name => simp only [answer, delete_seenBy]
  | openAppender name type codec => simp only [answer, createAppender_seenBy, fst_seenBy]
  | append a key m => simp only [answer, append_seenBy, fst_seenBy]
  | appendTo a index m => simp only [answer, appendTo_seenBy, fst_seenBy]
  | closeAppender a => simp only [answer, closeAppender_seenBy]
  | createTailer group ps type codec =>
    obtain rfl : group = g := own group rfl
    simp only [answer, createTailer_seenBy]
  | subscribe group names type codec =>
    obtain rfl : group = g := own group rfl
    simp only [answer, subscribe_seenBy, fst_seenBy]
  | takeOver r => simp only [answer, takeOver_seenBy (own _ rfl), fst_seenBy]
  | look r => simp only [answer, look_seenBy (own _ rfl)]
  | commit r => simp only [answer, commitAll_seenBy (own _ rfl), unit_seenBy]
  | commitPartition r p => simp only [answer, commitPartition_seenBy (own _ rfl), fst_seenBy]
  | toStart r => simp only [answer, toStart, moveAll_seenBy (own _ rfl), unit_seenBy]
  | toEnd r => simp only [answer, toEnd_seenBy (own _ rfl)]
  | toLastCommitted r => simp only [answer, toLastCommitted_seenBy (own _ rfl), unit_seenBy]
  | seek r o => simp only [answer, seek_seenBy (own _ rfl), unit_seenBy]
  | closeTailer r => simp only [answer, closeTailer_seenBy (own _ rfl)]
  | setFaults tailer close => rfl

end Store

namespace Broker

/-- A broker without what belongs to other groups, and without a record. -/
def view (g : String) (b : Broker) : Broker :=
  { b with store := b.store.seenBy g, ownership := {}, nextNumber := 0 }

variable {b c : Broker} {g : String}

theorem settle_view (b : Broker) (g : String) (outcome : Outcome (α × Broker)) :
    (b.view g).settle (outcome.map (Prod.map id (view g))) = (b.settle outcome).view g := by
  cases outcome <;> rfl

theorem fst_view (outcome : Outcome (α × Broker)) :
    (outcome.map (Prod.map id (view g))).map (·.1) = outcome.map (·.1) := by
  cases outcome <;> rfl

theorem createIfMissing_view (b : Broker) (g name : String) (size : Nat) :
    (b.view g).createIfMissing name size =
      (b.createIfMissing name size).map (Prod.map id (view g)) := by
  obtain ⟨store, limits, closed, appenders, ownership, next⟩ := b
  have contains : (store.seenBy g).contains name = store.contains name := rfl
  simp only [createIfMissing, view, checkOpen, Store.create_seenBy]
  cases closed with
  | true => rfl
  | false =>
    cases limits.checkLogName name with
    | error e => rfl
    | ok _ =>
      cases limits.checkPartitionCount size with
      | error e => rfl
      | ok _ =>
        simp only [Store.mapError_ok, bind, Except.bind, Bool.false_eq_true, if_false]
        split
        · rw [if_pos (contains.symm.trans ‹_›)]
          rfl
        · rw [if_neg (contains ▸ ‹_›)]
          cases store.create name size <;> rfl

theorem delete_view (b : Broker) (g name : String) :
    (b.view g).delete name = (b.delete name).map (Prod.map id (view g)) := by
  obtain ⟨store, limits, closed, appenders, ownership, next⟩ := b
  simp only [delete, view, checkOpen, Store.delete_seenBy]
  cases closed with
  | true => rfl
  | false =>
    simp only [bind, Except.bind, Bool.false_eq_true, if_false]
    cases (store.delete name).1 with
    | false => rfl
    | true =>
      cases appenders.lookup name with
      | none => rfl
      | some a => simp only [Store.closeAppender_seenBy]; rfl

theorem appender_view (b : Broker) (g name : String) (type : MessageType) (codec : Option Codec) :
    (b.view g).appender name type codec =
      (b.appender name type codec).map (Prod.map id (view g)) := by
  obtain ⟨store, limits, closed, appenders, ownership, next⟩ := b
  simp only [appender, view, checkOpen, Store.seenBy_appenders, Store.createAppender_seenBy]
  cases closed with
  | true => rfl
  | false =>
    simp only [bind, Except.bind, Bool.false_eq_true, if_false]
    cases appenders.lookup name with
    | none => cases store.createAppender name type codec <;> rfl
    | some a =>
      simp only [throw, throwThe, MonadExceptOf.throw]
      cases store.appenders[a]? with
      | none => rfl
      | some w =>
        by_cases other : w.type = type
        · cases mismatch : codec.isSome && !sameIdentity w.codec codec with
          | true => simp [other, mismatch, Except.map]
          | false =>
            simp [other, mismatch, Except.map, pure, Except.pure]
            rfl
        · simp [other, Except.map]

theorem checkLogs_view (b : Broker) (g : String) (codec : Option Codec) (names : List String) :
    (b.view g).checkLogs codec names = b.checkLogs codec names := by
  induction names with
  | nil => rfl
  | cons name rest ih =>
    simp only [checkLogs, ih]
    rfl

theorem lag_view (b : Broker) (g name : String) : (b.view g).lag name g = b.lag name g := by
  have committed : (b.store.seenBy g).committed? g = b.store.committed? g :=
    funext fun p => b.store.committed?_seenBy g p
  simp only [lag, view, committed]
  rfl

/-! The open tailers of a group that are on record. -/

/-- The open tailers of a group that are on record, in the order of their numbers. -/
def openOf (b : Broker) (g : String) : List TailerRef :=
  (b.ownership.inOrder.filter fun e => e.2.group = g && !b.store.isClosedTailer e.2).map (·.2)

/-- As the store goes on, fewer and fewer of the tailers on record are open. -/
theorem openOf_moves (known : ∀ e ∈ b.ownership.live, ∃ t, b.store.tailer? e.2 = some t)
    (moves : Moves b c) : c.openOf g = (b.openOf g).filter (!c.store.isClosedTailer ·) := by
  obtain ⟨⟨as, store⟩, ownership, -, -⟩ := moves
  have there (e : Nat × TailerRef) (member : e ∈ b.ownership.inOrder.filter (·.2.group = g)) :
      ∃ t, b.store.tailer? e.2 = some t :=
    known e (List.mem_mergeSort.mp (List.mem_of_mem_filter member))
  have fewer := Store.filter_open_run there as
  simp only [List.filter_filter, Bool.and_comm] at fewer
  simp only [openOf, store, ownership, List.filter_map, List.filter_filter, Function.comp_def,
    Bool.and_comm, fewer]

/-- Nothing that is open is forgotten. -/
theorem openOf_prune (numbered : (b.ownership.live.map (·.1)).Nodup) {o : Ownership} {m : Nat}
    {keep : Nat × TailerRef → Bool} (live : o.live = b.ownership.live.filter keep)
    (kept : ∀ e ∈ b.ownership.live, b.store.isClosedTailer e.2 = false → keep e = true) :
    (b.withRecord o m).openOf g = b.openOf g := by
  have fewer : (o.live.map (·.1)).Nodup := live ▸ numbered.sublist (List.filter_sublist.map _)
  have same : (o.live.filter fun e => e.2.group = g && !b.store.isClosedTailer e.2) =
      b.ownership.live.filter fun e => e.2.group = g && !b.store.isClosedTailer e.2 := by
    rw [live, List.filter_filter]
    refine List.filter_congr fun e member => ?_
    cases closed : b.store.isClosedTailer e.2 with
    | true => simp
    | false => simp [kept e member closed]
  simp only [openOf, withRecord]
  rw [filter_inOrder fewer, filter_inOrder numbered, same]

/-- A tailer with a number above all others comes last. -/
theorem inOrder_cons {o p : Ownership} {n : Nat} {r : TailerRef} (live : o.live = (n, r) :: p.live)
    (numbered : (p.live.map (·.1)).Nodup) (below : ∀ e ∈ p.live, e.1 < n) :
    o.inOrder = p.inOrder ++ [(n, r)] := by
  apply inOrder_eq
  case numbered =>
    rw [live, List.map_cons, List.nodup_cons]
    refine ⟨fun used => ?_, numbered⟩
    obtain ⟨e, member, same⟩ := List.mem_map.mp used
    exact Nat.ne_of_lt (below e member) same
  case same =>
    rw [live]
    exact (List.perm_append_singleton _ _).trans ((List.mergeSort_perm _ _).cons _)
  case sorted =>
    refine List.pairwise_append.mpr ⟨pairwise_inOrder p, List.pairwise_singleton _ _, ?_⟩
    intro e member last only
    cases List.mem_singleton.mp only
    exact Nat.le_of_lt (below e (List.mem_mergeSort.mp member))

theorem openOf_cons {o p : Ownership} {n m : Nat} {r : TailerRef}
    (live : o.live = (n, r) :: p.live) (numbered : (p.live.map (·.1)).Nodup)
    (below : ∀ e ∈ p.live, e.1 < n) : (b.withRecord o m).openOf g =
      (b.withRecord p m).openOf g ++
        [r].filter fun r => r.group = g && !b.store.isClosedTailer r := by
  simp only [openOf, withRecord, inOrder_cons live numbered below, List.filter_append,
    List.map_append, List.append_cancel_left_eq]
  show _ = ([(n, r)].map (·.2)).filter fun r => r.group = g && !b.store.isClosedTailer r
  rw [List.filter_map]
  rfl

/-! Openings during which nothing else takes place. -/

variable {group : String} {partitions : List Partition} {names : List String}
  {type : MessageType} {codec : Option Codec} {r : TailerRef}

/-- What a creation answers, told by what it looks at. -/
theorem createTailer_fst (b : Broker) (group : String) (partitions : List Partition)
    (type : MessageType) (codec : Option Codec) :
    (b.createTailer group partitions type codec).1 =
      match b.checkRequest group partitions with
      | .error e => .error e
      | .ok () =>
        match (b.ownership.prune b.store.isClosedTailer).taken? b.store.isClosedTailer
            (partitions.map (⟨group, ·⟩)) with
        | some key => .error (.alreadyAssigned key)
        | none =>
          match b.checkLogs codec (partitions.eraseDups.map (·.log)).eraseDups with
          | .error e => .error e
          | .ok () => (b.store.createTailer group partitions.eraseDups type codec).1 := by
  have begun := beginTailer_eq b group partitions type codec
  simp only [taken?_nextTicket] at begun
  unfold createTailer
  rw [begun]
  cases checked : b.checkRequest group partitions with
  | error e => rfl
  | ok _ =>
    simp only
    cases (b.ownership.prune b.store.isClosedTailer).taken? b.store.isClosedTailer
        (partitions.map (⟨group, ·⟩)) with
    | some key => rfl
    | none =>
      simp only [nextTicket]
      cases b.checkLogs codec (partitions.eraseDups.map (·.log)).eraseDups with
      | error e => rfl
      | ok _ =>
        simp only [askTailer, withRecord]
        cases (b.store.createTailer group partitions.eraseDups type codec).1 with
        | error e => rfl
        | ok r => simp only [finishTailer, checkRequest_open checked, Bool.false_eq_true, if_false]

/-- A creation that succeeds leaves the store's tailer on record. -/
theorem createTailer_made (made : (b.createTailer group partitions type codec).1 = .ok r) :
    b.closed = false ∧ (b.store.createTailer group partitions.eraseDups type codec).1 = .ok r ∧
      ∃ o : Ownership,
        o.live = (b.nextNumber, r) :: (b.ownership.prune b.store.isClosedTailer).live ∧
        (b.createTailer group partitions type codec).2 =
          { b with store := (b.store.createTailer group partitions.eraseDups type codec).2,
                   ownership := o, nextNumber := b.nextNumber + 1 } := by
  have step := begins b group partitions type codec
  have ticket : b.nextTicket group partitions type codec =
      ⟨b.nextNumber, group, partitions.eraseDups, type, codec⟩ := rfl
  unfold createTailer at made ⊢
  generalize b.nextTicket group partitions type codec = k at step ticket
  generalize b.beginTailer group partitions type codec = begun at step made ⊢
  obtain ⟨outcome, c⟩ := begun
  cases step with
  | refused | taken | unfit => cases made
  | reserves checked =>
    subst ticket
    have opened := checkRequest_open checked
    refine ⟨opened, ?_⟩
    simp only [askTailer] at made ⊢
    cases asked : (b.store.createTailer group partitions.eraseDups type codec).1 with
    | error e => simp [asked, finishTailer] at made
    | ok q =>
      simp only [asked, finishTailer, opened, Bool.false_eq_true, if_false] at made ⊢
      cases made
      exact ⟨rfl, _, rfl, rfl⟩

theorem checkSubscribe_open (checked : b.checkSubscribe group = .ok ()) : b.closed = false := by
  unfold checkSubscribe checkOpen at checked
  cases closed : b.closed with
  | false => rfl
  | true => simp [closed, bind, Except.bind] at checked

/-- A subscription fails and changes nothing, or leaves the store's tailer on record. -/
theorem subscribe_cases (b : Broker) (group : String) (names : List String) (type : MessageType)
    (codec : Option Codec) :
    (∃ e, b.subscribe group names type codec = (.error e, b)) ∨
      b.closed = false ∧ ∃ (r : TailerRef) (s : Store) (o : Ownership),
        b.store.subscribe group names type codec = .ok (r, s) ∧
        o.live = (b.nextNumber, r) :: (b.ownership.prune s.isClosedTailer).live ∧
        b.subscribe group names type codec =
          (.ok r, { b with store := s, ownership := o, nextNumber := b.nextNumber + 1 }) := by
  unfold subscribe
  cases checked : b.checkSubscribe group with
  | error e => exact .inl ⟨e, rfl⟩
  | ok _ =>
    simp only [askSubscribe]
    cases b.store.subscribe group names type codec with
    | error e => exact .inl ⟨e, rfl⟩
    | ok made =>
      have opened := checkSubscribe_open checked
      obtain ⟨r, s⟩ := made
      refine .inr ⟨opened, r, s, (b.ownership.prune s.isClosedTailer).track b.nextNumber r, rfl,
        rfl, ?_⟩
      simp only [bind, Except.bind, pure, Except.pure, finishSubscribe, opened, Bool.false_eq_true,
        if_false]

/-- What a subscription answers, told by what it looks at. -/
theorem subscribe_fst (b : Broker) (group : String) (names : List String) (type : MessageType)
    (codec : Option Codec) : (b.subscribe group names type codec).1 =
      match b.checkSubscribe group with
      | .error e => .error e
      | .ok () => (b.store.subscribe group names type codec).map (·.1) := by
  unfold subscribe
  cases checked : b.checkSubscribe group with
  | error e => rfl
  | ok _ =>
    simp only [askSubscribe]
    cases b.store.subscribe group names type codec with
    | error e => rfl
    | ok made =>
      simp only [bind, Except.bind, pure, Except.pure, finishSubscribe, checkSubscribe_open checked,
        Bool.false_eq_true, if_false]
      rfl

/-! Closing. -/

def shutting (b : Broker) : List Store.Action :=
  (b.appenders.mergeSort fun x y => x.1 ≤ y.1).map fun e => .closeAppender e.2

/-- A broker closes what is open. -/
theorem run_closing (known : ∀ e ∈ b.ownership.live, ∃ t, b.store.tailer? e.2 = some t) :
    b.store.run b.closing = b.store.run (b.shutting ++
      (b.ownership.inOrder.filter (!b.store.isClosedTailer ·.2)).map (.closeTailer ·.2)) := by
  have still : (b.store.run b.shutting).isClosedTailer = b.store.isClosedTailer := closing_tailers b
  have there (e : Nat × TailerRef) (member : e ∈ b.ownership.inOrder) :
      ∃ t, (b.store.run b.shutting).tailer? e.2 = some t := by
    obtain ⟨t, found⟩ := known e (List.mem_mergeSort.mp member)
    obtain ⟨t', found', -⟩ := Store.run_tailer found b.shutting
    exact ⟨t', found'⟩
  have opened (e : Nat × TailerRef) (_ : e ∈ b.ownership.inOrder)
      (unclosed : (b.store.run b.shutting).isClosedTailer e.2 = false) :
      (!b.store.isClosedTailer e.2) = true := by
    rw [← still, unclosed]
    rfl
  simp only [closing, Store.run_append]
  rw [← closeTailers_run, ← closeTailers_run]
  exact congrArg (·.2) (closeTailers_filter there opened)

/-- Of the closing, a group sees that the appenders are closed, and then its open tailers. -/
theorem closing_seenBy (faultless : b.store.Faultless)
    (known : ∀ e ∈ b.ownership.live, ∃ t, b.store.tailer? e.2 = some t) :
    (b.store.run b.closing).seenBy g =
      (b.store.seenBy g).run (b.shutting ++ (b.openOf g).map .closeTailer) := by
  have obeys (a : Store.Action) (member : a ∈ b.shutting ++
      (b.ownership.inOrder.filter (!b.store.isClosedTailer ·.2)).map (.closeTailer ·.2))
      (tailer close : Bool) : a ≠ .setFaults tailer close := by
    rcases List.mem_append.mp member with shut | closes
    · obtain ⟨e, -, rfl⟩ := List.mem_map.mp shut
      nofun
    · obtain ⟨e, -, rfl⟩ := List.mem_map.mp closes
      nofun
  rw [run_closing known, Store.run_seenBy faultless obeys]
  have shuts : b.shutting.filter (·.concerns g) = b.shutting := by
    refine List.filter_eq_self.mpr fun a member => ?_
    obtain ⟨e, -, rfl⟩ := List.mem_map.mp member
    rfl
  have closes : ((b.ownership.inOrder.filter (!b.store.isClosedTailer ·.2)).map
      fun e => Store.Action.closeTailer e.2).filter (·.concerns g) =
        (b.openOf g).map .closeTailer := by
    rw [openOf, List.filter_map, List.map_map, List.filter_filter]
    rfl
  rw [List.filter_append, shuts, closes]

end Broker

end Logbook
