import Logbook.Proofs.Broker.CodecAgreement
import Logbook.Proofs.Broker.Shutdown

/-! The memo of appenders: a broker hands out one appender for each log, until the log is deleted
through it, and says exactly when a request disagrees with the appender that is there. -/
namespace Logbook

namespace Store

/-- A new appender is that of the log under the name, as it was asked for. -/
theorem createAppender_new {s s' : Store} {name : String} {type : MessageType}
    {codec : Option Codec} {a : Nat} (answer : s.createAppender name type codec = .ok (a, s')) :
    a = s.appenders.length ∧ s.contains name = true ∧ ∃ w, s'.appenders = s.appenders ++ [w] ∧
      w.name = name ∧ w.type = type ∧ w.codec = codec := by
  obtain ⟨l, there, rfl, rfl⟩ := createAppender_eq_ok.mp answer
  exact ⟨rfl, by simp [contains, there], _, rfl, (log?_mem there).2, rfl, rfl⟩

theorem createAppender_error {s : Store} {name : String} {type : MessageType}
    {codec : Option Codec} (absent : s.contains name = false) :
    s.createAppender name type codec = .error (.unknownLog name) := by
  have none : s.log? name = none := by simpa [contains] using absent
  simp only [createAppender, log, none, bind, Except.bind]

end Store

namespace Broker

variable {b c : Broker} {name : String} {type : MessageType} {codec : Option Codec} {a : Nat}

def MemoNamed (b : Broker) : Prop :=
  ∀ name a, b.appenders.lookup name = some a →
    ∃ w, b.store.appenders[a]? = some w ∧ w.name = name

theorem Keeps.memoNamed (keeps : Keeps b c) (named : b.MemoNamed) : c.MemoNamed := by
  intro name a known
  obtain ⟨w, found, rfl⟩ := named name a (keeps.appenders name a known)
  obtain ⟨as, store⟩ := keeps.store
  obtain ⟨closed, later, -⟩ := Store.appenderStays_run found as
  rw [← store] at later
  exact ⟨_, later, rfl⟩

def Disagrees (w : Appender) (codec : Option Codec) : Prop :=
  ∃ k, codec = some k ∧ w.codec.map Codec.identity ≠ some k.identity

theorem disagrees_iff {w : Appender} :
    (codec.isSome && !sameIdentity w.codec codec) = true ↔ Disagrees w codec := by
  cases codec with
  | none => simp [Disagrees]
  | some k => simp [Disagrees, sameIdentity]

/-- What a request is answered when there is an appender: the type is compared first, then the
codec. -/
theorem appender_known (type : MessageType) (codec : Option Codec) {w : Appender}
    (opened : b.closed = false) (known : b.appenders.lookup name = some a)
    (found : b.store.appenders[a]? = some w) :
    w.type ≠ type ∧ b.appender name type codec = .error (.typeMismatch name w.type type) ∨
      w.type = type ∧ Disagrees w codec ∧ b.appender name type codec =
        .error (.codecMismatch name (w.codec.map Codec.identity) (codec.map Codec.identity)) ∨
      w.type = type ∧ ¬Disagrees w codec ∧ b.appender name type codec = .ok (a, b) := by
  have start : b.checkOpen = .ok () := by simp [checkOpen, opened]
  by_cases typed : w.type = type
  · by_cases disagrees : Disagrees w codec
    · refine .inr (.inl ⟨typed, disagrees, ?_⟩)
      simp only [appender, start, known, found, typed, ne_eq, not_true_eq_false, if_false,
        disagrees_iff.mpr disagrees, if_true, bind, Except.bind, pure, Except.pure, throw, throwThe,
        MonadExceptOf.throw]
    · have agrees := mt disagrees_iff.mp disagrees
      refine .inr (.inr ⟨typed, disagrees, ?_⟩)
      simp only [appender, start, known, found, typed, ne_eq, not_true_eq_false, if_false,
        if_neg agrees, bind, Except.bind, pure, Except.pure]
  · refine .inl ⟨typed, ?_⟩
    simp only [appender, start, known, found, ne_eq, typed, not_false_eq_true, if_true, bind,
      Except.bind, throw, throwThe, MonadExceptOf.throw]

/-- What a request is answered when there is no appender: the log has to exist. -/
theorem appender_unknown (type : MessageType) (codec : Option Codec) (opened : b.closed = false)
    (unknown : b.appenders.lookup name = none) :
    b.store.contains name = false ∧ b.appender name type codec = .error (.unknownLog name) ∨
      b.store.contains name = true ∧ ∃ s,
        b.store.createAppender name type codec = .ok (b.store.appenders.length, s) ∧
        b.appender name type codec = .ok (b.store.appenders.length,
          { b with store := s, appenders := (name, b.store.appenders.length) :: b.appenders }) := by
  have start : b.checkOpen = .ok () := by simp [checkOpen, opened]
  cases there : b.store.contains name with
  | false =>
    refine .inl ⟨rfl, ?_⟩
    simp only [appender, start, unknown, Store.createAppender_error there, bind, Except.bind]
  | true =>
    cases made : b.store.createAppender name type codec with
    | error e =>
      obtain ⟨l, found⟩ := Option.isSome_iff_exists.mp there
      simp [Store.createAppender, Store.log, found, bind, Except.bind, pure, Except.pure] at made
    | ok answer =>
      obtain ⟨new, s⟩ := answer
      obtain ⟨rfl, -⟩ := Store.createAppender_new made
      refine .inr ⟨rfl, s, rfl, ?_⟩
      simp only [appender, start, unknown, made, bind, Except.bind, pure, Except.pure]

theorem appender_closed (closed : b.closed = true) (name : String) (type : MessageType)
    (codec : Option Codec) : b.appender name type codec = .error (.closed .manager) := by
  simp only [appender, checkOpen, closed, if_true, bind, Except.bind]

/-- An appender that is answered is one for the name, of the type that was asked for and with the
codec, if one was asked for, and the broker remembers it. -/
theorem appender_answer (named : b.MemoNamed) (answer : b.appender name type codec = .ok (a, c)) :
    c.MemoNamed ∧ c.appenders.lookup name = some a ∧
      ∃ w, c.store.appenders[a]? = some w ∧ w.name = name ∧ w.type = type ∧
        ∀ k, codec = some k → w.codec.map Codec.identity = some k.identity := by
  obtain ⟨opened, -⟩ := appender_ok answer
  cases known : b.appenders.lookup name with
  | some i =>
    obtain ⟨w, found, called⟩ := named name i known
    rcases appender_known type codec opened known found with
      ⟨-, refused⟩ | ⟨-, -, refused⟩ | ⟨typed, agrees, same⟩
    · cases answer.symm.trans refused
    · cases answer.symm.trans refused
    · cases answer.symm.trans same
      refine ⟨named, known, w, found, called, typed, fun k asked => ?_⟩
      exact not_not.mp fun other => agrees ⟨k, asked, other⟩
  | none =>
    rcases appender_unknown type codec opened known with
      ⟨-, refused⟩ | ⟨-, s, made, new⟩
    · cases answer.symm.trans refused
    · cases answer.symm.trans new
      obtain ⟨-, -, w, more, called, typed, written⟩ := Store.createAppender_new made
      have found : s.appenders[b.store.appenders.length]? = some w := by
        rw [more, List.getElem?_concat_length]
      refine ⟨fun other i there => ?_, List.lookup_cons_self, w, found, called, typed, ?_⟩
      · by_cases same : other = name
        · subst same
          cases Option.some.inj (List.lookup_cons_self.symm.trans there)
          exact ⟨w, found, called⟩
        · rw [List.lookup_cons, beq_false_of_ne same] at there
          obtain ⟨v, old, called'⟩ := named other i there
          obtain ⟨within, -⟩ := List.getElem?_eq_some_iff.mp old
          refine ⟨v, ?_, called'⟩
          change s.appenders[i]? = some v
          rw [more, List.getElem?_append_left within, old]
      · rintro k rfl
        rw [written]
        rfl

namespace Session

variable {x : Session} {ops : List Operation}

/-- Whatever is not the deletion of a log through the broker. -/
def Spares (name : String) (x : Session) (op : Operation) : Prop :=
  op = .delete name → ∀ c, x.broker.delete name ≠ .ok (true, c)

theorem memoNamed_act (named : x.broker.MemoNamed) (op : Operation) :
    (x.act op).broker.MemoNamed := by
  cases op with
  | appender name type codec =>
    simp only [act]
    cases answer : x.broker.appender name type codec with
    | error e => exact named
    | ok made => exact (appender_answer named answer).1
  | _ => exact (x.act_keeps fun _ _ _ impossible => by cases impossible).memoNamed named

/-- An operation on an open broker keeps the appender of a name, unless it deletes the log or closes
the broker. -/
theorem remembers_act (known : x.broker.appenders.lookup name = some a) {op : Operation}
    (spared : Spares name x op) :
    (x.act op).broker.closed = true ∨ (x.act op).broker.appenders.lookup name = some a := by
  cases op with
  | delete other =>
    right
    simp only [act]
    rcases delete_cases x.broker other with ⟨same, -⟩ | deleted
    · rw [same]
      exact known
    · rw [deleted]
      change (x.broker.appenders.filter (·.1 ≠ other)).lookup name = some a
      by_cases same : name = other
      · subst same
        exact absurd deleted (spared rfl _)
      · rw [lookup_filter_ne, if_neg same, known]
  | appender other type codec =>
    right
    simp only [act]
    cases answer : x.broker.appender other type codec with
    | error e => exact known
    | ok made =>
      rcases (appender_ok answer).2 with ⟨-, same⟩ | ⟨unknown, s, -, new⟩
      · rw [settle, same]
        exact known
      · rw [settle, new]
        by_cases same : name = other
        · cases known.symm.trans (same ▸ unknown)
        · rw [List.lookup_cons, beq_false_of_ne same]
          exact known
  | close => exact .inl (closed_close x)
  | create | createTailer | subscribe | ask | finish | store =>
    right
    rw [x.appenders_act ?_ ?_ ?_]
    · exact known
    all_goals simp

theorem closed_stays (closed : x.broker.closed = true) (op : Operation) :
    (x.act op).broker.closed = true := by
  by_cases closes : op = .close
  · exact closes ▸ closed_close x
  · exact (closed_act x closes).trans closed

/-- Along a run without a deletion through the broker it remembers the appender of a name, as long
as it is open. -/
theorem remembers_run
    (known : x.broker.closed = true ∨ x.broker.appenders.lookup name = some a)
    (spared : Along (Spares name) x ops) :
    (x.run ops).broker.closed = true ∨ (x.run ops).broker.appenders.lookup name = some a := by
  induction ops generalizing x with
  | nil => exact known
  | cons op ops ih =>
    refine ih ?_ spared.2
    rcases known with closed | known
    · exact .inl (closed_stays closed op)
    · exact remembers_act known spared.1

/-- One appender for each log. Two requests for a name that succeed get the same appender, unless
the log was deleted through the broker in between, and each gets one for the name, of the type and
with the codec that was asked for. If there is an appender, a request fails exactly if it carries
another type or, that failing, if the codecs disagree. If there is none, it fails exactly if there
is no log, and otherwise gets a new one. A request that fails changes nothing. -/
structure OneAppender (x : Session) : Prop where
  same : ∀ name type codec a c ops type' codec' a' c',
    x.broker.appender name type codec = .ok (a, c) →
    Along (Spares name) (x.act (.appender name type codec)) ops →
    ((x.act (.appender name type codec)).run ops).broker.appender name type' codec' =
      .ok (a', c') → a' = a
  answers : ∀ name type codec a c, x.broker.appender name type codec = .ok (a, c) →
    ∃ w, c.store.appenders[a]? = some w ∧ w.name = name ∧ w.type = type ∧
      ∀ k, codec = some k → w.codec.map Codec.identity = some k.identity
  known : ∀ name a, x.broker.closed = false → x.broker.appenders.lookup name = some a →
    ∃ w, x.broker.store.appenders[a]? = some w ∧ w.name = name ∧ ∀ type codec,
      (x.broker.appender name type codec = .error (.typeMismatch name w.type type) ↔
        w.type ≠ type) ∧
      (x.broker.appender name type codec =
          .error (.codecMismatch name (w.codec.map Codec.identity) (codec.map Codec.identity)) ↔
        w.type = type ∧ Disagrees w codec) ∧
      (x.broker.appender name type codec = .ok (a, x.broker) ↔
        w.type = type ∧ ¬Disagrees w codec)
  unknown : ∀ name type codec, x.broker.closed = false → x.broker.appenders.lookup name = none →
    (x.broker.appender name type codec = .error (.unknownLog name) ↔
      x.broker.store.contains name = false) ∧
    ((∃ c, x.broker.appender name type codec = .ok (x.broker.store.appenders.length, c)) ↔
      x.broker.store.contains name = true)
  closed : ∀ name type codec, x.broker.closed = true →
    x.broker.appender name type codec = .error (.closed .manager)
  fails : ∀ name type codec e, x.broker.appender name type codec = .error e →
    x.act (.appender name type codec) = x

/-- Every broker hands out one appender for each log. -/
theorem one_appender (config : StoreConfig) (limits : Limits) (ops : List Operation) :
    OneAppender ((start config limits).run ops) := by
  have named : ((start config limits).run ops).broker.MemoNamed := by
    apply run_invariant (P := fun x => x.broker.MemoNamed)
    · intro x op named
      exact memoNamed_act named op
    · intro name a known
      cases known
  generalize (start config limits).run ops = x at named
  constructor
  case same =>
    intro name type codec a c ops type' codec' a' c' first spared second
    have remembered :
        (x.act (.appender name type codec)).broker.appenders.lookup name = some a := by
      simp only [act, first]
      exact (appender_answer named first).2.1
    rcases remembers_run (.inr remembered) spared with closed | known
    · cases second.symm.trans (appender_closed closed name type' codec')
    · rcases (appender_ok second).2 with ⟨again, -⟩ | ⟨unknown, -⟩
      · exact Option.some.inj (again.symm.trans known)
      · cases known.symm.trans unknown
  case answers =>
    intro name type codec a c answer
    exact (appender_answer named answer).2.2
  case known =>
    intro name a opened known
    obtain ⟨w, found, called⟩ := named name a known
    refine ⟨w, found, called, fun type codec => ?_⟩
    rcases appender_known type codec opened known found with
      ⟨other, result⟩ | ⟨typed, disagrees, result⟩ | ⟨typed, agrees, result⟩
    · exact ⟨iff_of_true result other, by simp [result, other], by simp [result, other]⟩
    · refine ⟨by simp [result, typed], iff_of_true result ⟨typed, disagrees⟩, ?_⟩
      simp [result, disagrees]
    · refine ⟨by simp [result, typed], by simp [result, agrees], ?_⟩
      exact iff_of_true result ⟨typed, agrees⟩
  case unknown =>
    intro name type codec opened unknown
    rcases appender_unknown type codec opened unknown with
      ⟨absent, result⟩ | ⟨there, s, -, result⟩
    · simp [result, absent]
    · simp [result, there]
  case closed => exact fun name type codec closed => appender_closed closed name type codec
  case fails =>
    intro name type codec e failed
    simp only [act, failed]
    rfl

end Session

end Broker

end Logbook
