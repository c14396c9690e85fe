import Logbook.Proofs.Broker.Memo
import Logbook.Proofs.Broker.Tracking
import Logbook.Proofs.Store.AppendOnly

/-! Appenders that are handed out. As long as logs are deleted through the broker only, the appender
that it remembers for a log is one of the log that is there now. Those who ask for it share it: who
closes it closes it for the others, too, and for those who ask for it later. -/
namespace Logbook

namespace Store

variable {s s' : Store} {a : Action} {as : List Action} {l : Log} {name : String} {x : Nat}
  {w : Appender}

structure AppenderOf (s : Store) (name : String) (x : Nat) (w : Appender) : Prop where
  found : s.appenders[x]? = some w
  called : w.name = name
  log : ∃ l, s.log? name = some l ∧ l.number = w.log

theorem AppenderOf.run (current : AppenderOf s name x w) (spared : Along (Spares name) s as)
    (untouched : .closeAppender x ∉ as) : AppenderOf (s.run as) name x w := by
  obtain ⟨l, there, number⟩ := current.log
  obtain ⟨l', later, grows⟩ := log_grows there spared
  exact ⟨appender_kept_run current.found untouched, current.called, l', later,
    grows.number.trans number⟩

/-- An appender that was told to close is one of its log still, but closed. -/
theorem AppenderOf.close (current : AppenderOf s name x w) :
    AppenderOf (s.act (.closeAppender x)) name x { w with closed := true } := by
  obtain ⟨closed, there, -⟩ := (effect s (.closeAppender x)).appenderStays current.found
  have shut := closeAppender_closes current.found
  rw [isClosedAppender_eq there] at shut
  obtain rfl : closed = true := shut
  obtain ⟨l, log, number⟩ := current.log
  obtain ⟨l', later, grows⟩ := (effect s (.closeAppender x)).grows log (fun same => by cases same)
  exact ⟨there, current.called, l', later, grows.number.trans number⟩

/-- A new appender is one of the log, and open. -/
theorem createAppender_current {type : MessageType} {codec : Option Codec}
    (answer : s.createAppender name type codec = .ok (x, s')) :
    x = s.appenders.length ∧ ∃ w, AppenderOf s' name x w ∧ w.closed = false := by
  obtain ⟨l, there, rfl, rfl⟩ := createAppender_eq_ok.mp answer
  exact ⟨rfl, _, ⟨List.getElem?_concat_length, (log?_mem there).2, l, there, rfl⟩, rfl⟩

/-- An appender of a log that is there appends what it can encode, unless it is closed. -/
theorem AppenderOf.appends (current : AppenderOf s name x w) (named : Named s)
    (found : s.log? name = some l) : w.log = l.number ∧ w.size = l.size ∧
      (w.closed = true → ∀ index m, s.appendTo x index m = .error (.closed .appender)) ∧
      (w.closed = false → ∀ index m data, index < l.size →
        (defaultCodec w.codec).encode m = .ok data →
        ∃ position s', s.appendTo x index m = .ok (⟨⟨name, index⟩, position⟩, s')) := by
  obtain ⟨k, there, number⟩ := current.log
  cases Option.some.inj (there.symm.trans found)
  obtain ⟨member, called⟩ := log?_mem found
  have size := ((named.appenders w (List.mem_of_getElem? current.found)).2 l member number).2
  refine ⟨number.symm, size.symm, ?_, ?_⟩
  · intro closed index m
    refine (appendTo_error named).mpr (.closed fun v opened => ?_)
    obtain ⟨found', opened⟩ := openAppender_ok.mp opened
    cases Option.some.inj (current.found.symm.trans found')
    cases closed.symm.trans opened
  · intro opened index m data within coded
    have ready := openAppender_ok.mpr ⟨current.found, opened⟩
    rcases appendTo_there named ready member number within m with
      ⟨f, failed, -⟩ | ⟨_, position, s', -, done⟩
    · cases coded.symm.trans failed
    · exact ⟨position, s', called ▸ done⟩

end Store

namespace Broker

namespace Session

variable {x : Session} {ops : List Operation} {op : Operation} {name : String} {a : Nat}
  {shut : List Nat}

/-- Whatever does not delete a log behind the broker's back. -/
def DeletesByBroker (x : Session) : Operation → Prop
  | .store (.delete name) => (x.broker.store.delete name).1 = false
  | _ => True

/-- The appender that somebody who holds it closes, if that is what an operation does. -/
def closedByHolder? (x : Session) : Operation → Option Nat
  | .store (.closeAppender a) => if a < x.broker.store.appenders.length then some a else none
  | _ => none

def closedByHolders (x : Session) : List Operation → List Nat
  | [] => []
  | op :: ops => (x.closedByHolder? op).toList ++ (x.act op).closedByHolders ops

theorem closedByHolder?_eq : x.closedByHolder? op = some a ↔
    op = .store (.closeAppender a) ∧ ∃ w, x.broker.store.appenders[a]? = some w := by
  unfold closedByHolder?
  split
  · rename_i b
    constructor
    · intro closes
      split at closes
      · rename_i within
        cases closes
        exact ⟨rfl, _, List.getElem?_eq_getElem within⟩
      · cases closes
    · rintro ⟨same, w, found⟩
      cases same
      exact if_pos (List.getElem?_eq_some_iff.mp found).1
  · rename_i other
    constructor
    · intro closes
      cases closes
    · rintro ⟨rfl, -⟩
      exact absurd rfl (other a)

structure Fresh (x : Session) (shut : List Nat) : Prop where
  known : ∀ a ∈ shut, ∃ w, x.broker.store.appenders[a]? = some w
  current : ∀ name a, x.broker.appenders.lookup name = some a →
    ∃ w, x.broker.store.AppenderOf name a w ∧ (w.closed = true ↔ a ∈ shut)

/-- An appender that the broker remembers after an operation is one that it remembered before, or
the operation was to ask for it. -/
theorem lookup_act (known : (x.act op).broker.appenders.lookup name = some a) :
    x.broker.appenders.lookup name = some a ∨ ∃ type codec, op = .appender name type codec ∧
      x.broker.store.createAppender name type codec = .ok (a, (x.act op).broker.store) := by
  by_cases asks : ∃ other type codec, op = .appender other type codec
  · obtain ⟨other, type, codec, rfl⟩ := asks
    simp only [act] at known ⊢
    cases answer : x.broker.appender other type codec with
    | error e =>
      rw [answer] at known
      exact .inl known
    | ok made =>
      obtain ⟨i, c⟩ := made
      rw [answer] at known
      rcases (appender_ok answer).2 with ⟨-, rfl⟩ | ⟨-, s, created, rfl⟩
      · exact .inl known
      · by_cases same : name = other
        · subst same
          cases Option.some.inj (List.lookup_cons_self.symm.trans known)
          exact .inr ⟨type, codec, rfl, created⟩
        · left
          simpa only [settle, List.lookup_cons, beq_false_of_ne same] using known
  · left
    have keeps : Keeps x.broker (x.act op).broker :=
      x.act_keeps fun other type codec same => asks ⟨other, type, codec, same⟩
    exact keeps.appenders name a known

theorem lookup_deleted {c : Broker} (deleted : x.broker.delete name = .ok (true, c)) :
    (x.act (.delete name)).broker.appenders.lookup name = none := by
  rcases delete_cases x.broker name with ⟨-, refused⟩ | done
  · exact absurd deleted (refused c)
  · simp only [act, done, settle]
    rw [lookup_filter_ne, if_pos rfl]

theorem lookup_closed (opened : x.broker.closed = false) (name : String) :
    (x.act .close).broker.appenders.lookup name = none := by
  simp only [act, close_eq opened]
  rfl

/-- What an operation does to the store leaves the appender of a log alone if the broker remembers
it afterwards, but for the order of a holder to close it. -/
theorem Fresh.spares (fresh : Fresh x shut) (deletes : DeletesByBroker x op)
    (known : (x.act op).broker.appenders.lookup name = some a)
    (old : x.broker.appenders.lookup name = some a) (holds : op ≠ .store (.closeAppender a)) :
    Store.Along (Store.Spares name) x.broker.store (x.storeActions op) ∧
      Store.Action.closeAppender a ∉ x.storeActions op := by
  obtain ⟨w, current, -⟩ := fresh.current name a old
  have remembered (gone : (x.act op).broker.appenders.lookup name = none) : False := by
    cases gone.symm.trans known
  constructor
  · by_cases stores : ∃ b, op = .store b
    · obtain ⟨b, rfl⟩ := stores
      refine ⟨?_, trivial⟩
      rintro rfl
      exact deletes
    · apply Store.along_of_forall
      rintro b member s rfl
      cases causes member with
      | same => exact absurd ⟨_, rfl⟩ stores
      | deletes done => exact (remembered (lookup_deleted done)).elim
  · intro member
    cases causes member with
    | same => exact holds rfl
    | closesWith done there =>
      -- the appender that goes with a log is one of that log
      obtain ⟨v, other, -⟩ := fresh.current _ a there
      cases Option.some.inj (current.found.symm.trans other.found)
      cases current.called.symm.trans other.called
      exact remembered (lookup_deleted done)
    | closesAppender _ opened => exact remembered (lookup_closed opened name)

theorem Fresh.act (fresh : Fresh x shut) (deletes : DeletesByBroker x op) :
    Fresh (x.act op) (shut ++ (x.closedByHolder? op).toList) := by
  constructor
  case known =>
    intro a member
    have there : ∃ w, x.broker.store.appenders[a]? = some w := by
      rcases List.mem_append.mp member with before | now
      · exact fresh.known a before
      · exact (closedByHolder?_eq.mp (Option.mem_toList.mp now)).2
    obtain ⟨w, found⟩ := there
    obtain ⟨w', later, -⟩ := Store.run_appender found (x.storeActions op)
    exact ⟨w', x.store_act op ▸ later⟩
  case current =>
    intro name a known
    rcases lookup_act known with old | ⟨type, codec, rfl, created⟩
    · obtain ⟨w, current, closed⟩ := fresh.current name a old
      by_cases holds : op = .store (.closeAppender a)
      · subst holds
        refine ⟨{ w with closed := true }, current.close, iff_of_true rfl ?_⟩
        apply List.mem_append_right
        exact Option.mem_toList.mpr (closedByHolder?_eq.mpr ⟨rfl, w, current.found⟩)
      · obtain ⟨spared, untouched⟩ := fresh.spares deletes known old holds
        refine ⟨w, x.store_act op ▸ current.run spared untouched, ?_⟩
        rw [closed, List.mem_append, or_iff_left]
        intro now
        exact holds (closedByHolder?_eq.mp (Option.mem_toList.mp now)).1
    · obtain ⟨rfl, w, current, opened⟩ := Store.createAppender_current created
      refine ⟨w, current, iff_of_false (by simp [opened]) fun member => ?_⟩
      -- nobody could hold it before it was there
      obtain ⟨v, found⟩ := fresh.known _ ((List.mem_append.mp member).resolve_right List.not_mem_nil)
      exact absurd (List.getElem?_eq_some_iff.mp found).1 (Nat.lt_irrefl _)

theorem fresh_start (config : StoreConfig) (limits : Limits) : Fresh (start config limits) [] := by
  constructor
  case known =>
    intro a member
    cases member
  case current =>
    intro name a known
    cases known

theorem fresh_run (fresh : Fresh x shut) (deletes : Along DeletesByBroker x ops) :
    Fresh (x.run ops) (shut ++ x.closedByHolders ops) := by
  induction ops generalizing x shut with
  | nil =>
    rw [closedByHolders, List.append_nil]
    exact fresh
  | cons op ops ih =>
    have later := ih (fresh.act deletes.1) deletes.2
    rwa [List.append_assoc] at later

/-- Whatever the broker remembers for a log after the log was deleted is a new appender. -/
theorem new_run {s : Store} (reached : ∃ as, x.broker.store = s.run as)
    (new : ∀ a, x.broker.appenders.lookup name = some a → s.appenders[a]? = none)
    (known : (x.run ops).broker.appenders.lookup name = some a) : s.appenders[a]? = none := by
  induction ops generalizing x with
  | nil => exact new a known
  | cons op ops ih =>
    obtain ⟨as, later⟩ := reached
    have on : (x.act op).broker.store = s.run (as ++ x.storeActions op) := by
      rw [store_act, later, Store.run_append]
    refine ih ⟨_, on⟩ (fun b there => ?_) known
    rcases lookup_act there with old | ⟨type, codec, -, created⟩
    · exact new b old
    · obtain ⟨rfl, -⟩ := Store.createAppender_current created
      refine Option.eq_none_iff_forall_ne_some.mpr fun w found => ?_
      obtain ⟨w', final, -⟩ := Store.run_appender found as
      rw [later] at final
      exact absurd (List.getElem?_eq_some_iff.mp final).1 (Nat.lt_irrefl _)

/-- What is handed out for a log. It is an appender of the log that is there now, new if the log was
deleted through the broker and made again, and closed exactly if it was closed by somebody who held
it. If it is closed it appends nothing, and otherwise it appends to every partition of the log what
it can encode. -/
structure Usable (x : Session) (ops : List Operation) (name : String) (a : Nat) (s : Store)
    (w : Appender) (l : Log) : Prop where
  found : s.appenders[a]? = some w
  there : s.log? name = some l
  current : w.log = l.number
  size : w.size = l.size
  renewed : ∀ before after c, ops = before ++ .delete name :: after →
    (x.run before).broker.delete name = .ok (true, c) →
    (x.run before).broker.store.appenders[a]? = none
  closed : w.closed = true ↔ a ∈ x.closedByHolders ops
  fails : w.closed = true → ∀ index m, s.appendTo a index m = .error (.closed .appender)
  appends : w.closed = false → ∀ index m data, index < l.size →
    (defaultCodec w.codec).encode m = .ok data →
    ∃ position s', s.appendTo a index m = .ok (⟨⟨name, index⟩, position⟩, s')

/-- In sessions in which logs are deleted through the broker only, every appender that is handed out
can be used, unless somebody who held it closed it. -/
theorem appender_usable {config : StoreConfig} {limits : Limits} {type : MessageType}
    {codec : Option Codec} {c : Broker} (deletes : Along DeletesByBroker (start config limits) ops)
    (answer : ((start config limits).run ops).broker.appender name type codec = .ok (a, c)) :
    ∃ w l, Usable (start config limits) ops name a c.store w l := by
  have asked : (((start config limits).run ops).act (.appender name type codec)).broker = c := by
    simp only [act, answer, settle]
  have known : c.appenders.lookup name = some a := by
    rcases (appender_ok answer).2 with ⟨known, rfl⟩ | ⟨-, s, -, rfl⟩
    · exact known
    · exact List.lookup_cons_self
  have named : c.store.Named := by
    rw [← asked, ← run_concat, store_start]
    exact Store.named_run _
  have asks : DeletesByBroker ((start config limits).run ops) (.appender name type codec) := trivial
  have fresh := (fresh_run (fresh_start config limits) deletes).act asks
  obtain ⟨w, current, closed⟩ := fresh.current name a (asked ▸ known)
  rw [asked] at current
  obtain ⟨l, there, -⟩ := current.log
  obtain ⟨number, size, fails, appends⟩ := current.appends named there
  refine ⟨w, l, current.found, there, number, size, ?renewed, ?closed, fails, appends⟩
  case closed =>
    rw [closed, List.nil_append]
    exact iff_of_eq (congrArg (a ∈ ·) (List.append_nil _))
  case renewed =>
    rintro before after b rfl deleted
    have afterwards : (start config limits).run (before ++ .delete name :: after) =
        (((start config limits).run before).act (.delete name)).run after := List.foldl_append
    rw [afterwards, ← run_concat] at asked
    apply new_run ⟨_, store_act _ _⟩ ?_ (asked ▸ known)
    intro i remembered
    cases (lookup_deleted deleted).symm.trans remembered

/-- A log is made, its appender is handed out and closed, and the log is deleted and made again with
more partitions. -/
def madeAgain : List Operation :=
  [.create "events" 1, .appender "events" .string none, .store (.closeAppender 0), .delete "events",
    .create "events" 3]

/-- An appender for a log that was made again is a new one, and open. -/
theorem madeAgain_usable :
    Along DeletesByBroker (start {} {}) madeAgain ∧
    ∃ c, ((start {} {}).run madeAgain).broker.appender "events" .string none = .ok (1, c) ∧
      c.store.isClosedAppender 1 = false ∧
      (∃ s, c.store.appendTo 1 2 (.text "m") = .ok (⟨⟨"events", 2⟩, 0⟩, s)) ∧
      ∃ w l, Usable (start {} {}) madeAgain "events" 1 c.store w l := by
  have deletes : Along DeletesByBroker (start {} {}) madeAgain :=
    ⟨trivial, trivial, trivial, trivial, trivial, trivial⟩
  refine ⟨deletes, _, rfl, by decide +kernel, ⟨_, rfl⟩, appender_usable deletes rfl⟩

/-- Somebody who asks for the appender of a log gets a closed one if another one has closed it. -/
theorem closedMeanwhile_refused :
    let ops : List Operation :=
      [.create "events" 1, .appender "events" .string none, .store (.closeAppender 0)]
    Along DeletesByBroker (start {} {}) ops ∧
    ((start {} {}).run ops).broker.closed = false ∧
    ∃ c, ((start {} {}).run ops).broker.appender "events" .string none = .ok (0, c) ∧
      c.store.isClosedAppender 0 = true ∧ c.store.sizeOf? "events" = some 1 ∧
      (∃ data, (defaultCodec none).encode (.text "m") = .ok data) ∧
      c.store.appendTo 0 0 (.text "m") = .error (.closed .appender) :=
  ⟨⟨trivial, trivial, trivial, trivial⟩, rfl, _, rfl, rfl, rfl, ⟨_, rfl⟩, rfl⟩

end Session

end Broker

end Logbook
