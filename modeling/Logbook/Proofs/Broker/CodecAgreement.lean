import Logbook.Proofs.Broker.Soundness

/-! Codec agreement: the codec of a log's appender and those of the tailers of the log. A creation
compares its codec with the appender's, but an appender that is bound later is compared with
nothing. -/
namespace Logbook.Broker

def Bound (b : Broker) : Prop :=
  ∀ name a, b.appenders.lookup name = some a → ∃ w, b.store.appenders[a]? = some w

theorem codecOf?_eq (b : Broker) (name : String) : b.codecOf? name =
    (b.appenders.lookup name).bind fun a => b.store.appenders[a]?.bind Appender.codec := rfl

variable {b c : Broker}

theorem Keeps.bound (keeps : Keeps b c) (bound : b.Bound) : c.Bound := by
  intro name a known
  obtain ⟨w, found⟩ := bound name a (keeps.appenders name a known)
  obtain ⟨as, store⟩ := keeps.store
  obtain ⟨w', later, -⟩ := Store.run_appender found as
  exact ⟨w', store ▸ later⟩

/-- A log gets no codec that it did not have. -/
theorem Keeps.codecOf? (keeps : Keeps b c) (bound : b.Bound) {name : String} {codec : Codec}
    (known : c.codecOf? name = some codec) : b.codecOf? name = some codec := by
  obtain ⟨as, store⟩ := keeps.store
  rw [codecOf?_eq, Option.bind_eq_some_iff] at known ⊢
  obtain ⟨a, there, written⟩ := known
  have before := keeps.appenders name a there
  obtain ⟨w, found⟩ := bound name a before
  obtain ⟨w', later, same⟩ := Store.run_appender found as
  rw [store, later] at written
  exact ⟨a, before, by rw [found]; exact same.codec.symm.trans written⟩

/-- A new appender binds its log, and no other, to its codec. -/
theorem bind_codecOf? (bound : b.Bound) {name : String} {type : MessageType}
    {codec : Option Codec} {a : Nat} {s : Store}
    (created : b.store.createAppender name type codec = .ok (a, s)) (other : String) :
    codecOf? { b with store := s, appenders := (name, a) :: b.appenders } other =
      if other = name then codec else b.codecOf? other := by
  obtain ⟨rfl, w, written, rfl⟩ := Store.createAppender_ok created
  simp only [codecOf?_eq]
  by_cases same : other = name
  · rw [if_pos same, same, List.lookup_cons_self, Option.bind_some, List.getElem?_concat_length]
    exact written
  · rw [if_neg same, List.lookup_cons, beq_false_of_ne same]
    cases known : b.appenders.lookup other with
    | none => rfl
    | some i =>
      obtain ⟨v, found⟩ := bound other i known
      obtain ⟨within, _⟩ := List.getElem?_eq_some_iff.mp found
      simp only [Option.bind_some, List.getElem?_append_left within]

theorem bind_bound (bound : b.Bound) {name : String} {type : MessageType} {codec : Option Codec}
    {a : Nat} {s : Store} (created : b.store.createAppender name type codec = .ok (a, s)) :
    Bound { b with store := s, appenders := (name, a) :: b.appenders } := by
  obtain ⟨rfl, w, _, rfl⟩ := Store.createAppender_ok created
  intro other i known
  by_cases same : other = name
  · subst same
    cases Option.some.inj (List.lookup_cons_self.symm.trans known)
    exact ⟨w, List.getElem?_concat_length⟩
  · simp only [List.lookup_cons, beq_false_of_ne same] at known
    obtain ⟨v, found⟩ := bound other i known
    obtain ⟨within, _⟩ := List.getElem?_eq_some_iff.mp found
    exact ⟨v, (List.getElem?_append_left within).trans found⟩

namespace Session

def Reads (x : Session) (name : String) (t : Tailer) : Prop :=
  ∃ r ∈ x.explicit, x.broker.store.tailer? r = some t ∧ t.closed = false ∧
    ∃ p ∈ t.assignments, p.log = name

/-- The open tailers of a log have the codec of its appender. -/
def TailersAgree (x : Session) : Prop :=
  ∀ name c t, x.broker.codecOf? name = some c → x.Reads name t →
    t.codec.map Codec.identity = some c.identity

/-- An operation keeps codecs in agreement: a codec that a log is bound to is that of all open
tailers of the log, and a tailer that is handed out open has the codecs of its logs. -/
def Fits (x : Session) : Operation → Prop
  | .appender name type (some c) => (x.broker.appender name type (some c)).isOk →
      x.broker.appenders.lookup name = none → ∀ t, x.Reads name t →
        t.codec.map Codec.identity = some c.identity
  | .finish i => ∀ k r t, x.calls[i]? = some (.created k (.ok r)) → x.broker.closed = false →
      x.broker.store.tailer? r = some t → t.closed = false → ∀ p ∈ t.assignments, ∀ c,
        x.broker.codecOf? p.log = some c → t.codec.map Codec.identity = some c.identity
  | _ => True

variable {x : Session}

/-- Tailers go on to agree as long as neither a tailer nor an appender is handed out. -/
theorem agree_keeps (sound : Sound x) (bound : x.broker.Bound) (agree : TailersAgree x)
    {y : Session} (keeps : Keeps x.broker y.broker) (same : y.explicit = x.explicit) :
    TailersAgree y := by
  intro name c t known reads
  obtain ⟨r, handed, found', opened, p, holds, log⟩ := reads
  rw [same] at handed
  obtain ⟨as, store⟩ := keeps.store
  obtain ⟨u, found, explicit⟩ := sound.explicit r handed
  obtain ⟨v, there, later⟩ := Store.run_tailer found as
  have current : v = t := Option.some.inj (there.symm.trans (store ▸ found'))
  subst current
  rw [later.codec]
  refine agree name c u (keeps.codecOf? bound known) ⟨r, handed, found, ?_, p, ?_, log⟩
  · exact Bool.eq_false_iff.mpr fun closed => by cases opened.symm.trans (later.closed closed)
  · exact later.assignments explicit ▸ holds

theorem agree_bind (bound : x.broker.Bound) (agree : TailersAgree x) {name : String}
    {type : MessageType} {codec : Option Codec} {a : Nat} {s : Store}
    (created : x.broker.store.createAppender name type codec = .ok (a, s)) :
    TailersAgree { x with broker := { x.broker with
        store := s, appenders := (name, a) :: x.broker.appenders } } ↔
      ∀ c, codec = some c → ∀ t, x.Reads name t → t.codec.map Codec.identity = some c.identity := by
  have binds := bind_codecOf? bound created
  obtain ⟨rfl, w, _, rfl⟩ := Store.createAppender_ok created
  constructor
  · rintro agree c rfl t reads
    exact agree name c t ((binds name).trans (if_pos rfl)) reads
  · intro fits other c t known reads
    replace known := (binds other).symm.trans known
    by_cases same : other = name
    · rw [if_pos same] at known
      exact fits c known t (same ▸ reads)
    · rw [if_neg same] at known
      exact agree other c t known reads

theorem agree_appender (bound : x.broker.Bound) (agree : TailersAgree x)
    (name : String) (type : MessageType) (codec : Option Codec) :
    TailersAgree (x.act (.appender name type codec)) ↔
      x.Fits (.appender name type codec) := by
  simp only [act]
  cases answer : x.broker.appender name type codec with
  | error e =>
    refine iff_of_true agree ?_
    cases codec with
    | none => trivial
    | some c =>
      intro opens
      simp [answer, Except.isOk, Except.toBool] at opens
  | ok made =>
    obtain ⟨a, b⟩ := made
    rcases (appender_ok answer).2 with ⟨known, rfl⟩ | ⟨unknown, s, created, rfl⟩
    · refine iff_of_true agree ?_
      cases codec with
      | none => trivial
      | some c =>
        intro _ unknown
        cases known.symm.trans unknown
    · refine (agree_bind bound agree created).trans ?_
      cases codec with
      | none => simp [Fits]
      | some c =>
        simp only [Option.some.injEq, forall_eq', Fits, answer, Except.isOk, Except.toBool,
          unknown, forall_const]

/-- A tailer that is handed out agrees with the appenders of its logs or does not. -/
theorem agree_handOut (agree : TailersAgree x) (r : TailerRef) :
    TailersAgree { x with explicit := x.explicit ++ [r] } ↔
      ∀ t, x.broker.store.tailer? r = some t → t.closed = false → ∀ p ∈ t.assignments, ∀ c,
        x.broker.codecOf? p.log = some c → t.codec.map Codec.identity = some c.identity := by
  constructor
  · intro agree t found opened p holds c known
    exact agree p.log c t known
      ⟨r, List.mem_append_right _ (List.mem_singleton_self r), found, opened, p, holds, rfl⟩
  · rintro fits name c t known ⟨q, handed, found, opened, p, holds, rfl⟩
    rcases List.mem_append.mp handed with old | new
    · exact agree p.log c t known ⟨q, old, found, opened, p, holds, rfl⟩
    · cases List.mem_singleton.mp new
      exact fits t found opened p holds c known

theorem agree_act (sound : Sound x) (bound : x.broker.Bound) (agree : TailersAgree x)
    (op : Operation) : TailersAgree (x.act op) ↔ x.Fits op := by
  rcases act_explicit x op with same | ⟨i, k, r, rfl, there, opened⟩
  · cases op with
    | appender name type codec => exact agree_appender bound agree name type codec
    | finish i =>
      have keeps : Keeps x.broker (x.act (.finish i)).broker :=
        x.act_keeps fun _ _ _ impossible => by cases impossible
      refine iff_of_true (agree_keeps sound bound agree keeps same) ?_
      -- a creation that succeeds on an open broker hands one more tailer out
      intro k r t there opened
      simp [act, finish, there, finishTailer, opened, handOut] at same
    | _ =>
      refine iff_of_true (agree_keeps sound bound agree (x.act_keeps ?_) same) trivial
      exact fun _ _ _ impossible => by cases impossible
  · have hands : TailersAgree (x.act (.finish i)) ↔
        TailersAgree { x with explicit := x.explicit ++ [r] } := by
      simp only [act, finish, there, finishTailer, opened, Bool.false_eq_true, if_false]
      exact Iff.rfl
    refine hands.trans ((agree_handOut agree r).trans ⟨fun fits j q t other _ => ?_, fun fits t =>
      fits k r t there opened⟩)
    cases there.symm.trans other
    exact fits t

theorem bound_act (bound : x.broker.Bound) (op : Operation) : (x.act op).broker.Bound := by
  cases op with
  | appender name type codec =>
    simp only [act]
    cases answer : x.broker.appender name type codec with
    | error e => exact bound
    | ok made =>
      obtain ⟨a, b⟩ := made
      rcases (appender_ok answer).2 with ⟨-, rfl⟩ | ⟨-, s, created, rfl⟩
      · exact bound
      · exact bind_bound bound created
  | _ => exact (x.act_keeps fun _ _ _ impossible => by cases impossible).bound bound

def Always (P : Session → Prop) (x : Session) : List Operation → Prop
  | [] => P x
  | op :: ops => P x ∧ Always P (x.act op) ops

def Along (Q : Session → Operation → Prop) (x : Session) : List Operation → Prop
  | [] => True
  | op :: ops => Q x op ∧ Along Q (x.act op) ops

theorem always_agree (sound : Sound x) (bound : x.broker.Bound) (agree : TailersAgree x)
    (ops : List Operation) : Always TailersAgree x ops ↔ Along Fits x ops := by
  induction ops generalizing x with
  | nil => exact iff_of_true agree trivial
  | cons op ops ih =>
    have step := agree_act sound bound agree op
    constructor
    · rintro ⟨_, later⟩
      have next : TailersAgree (x.act op) := by
        cases ops with
        | nil => exact later
        | cons _ _ => exact later.1
      exact ⟨step.mp next, (ih (sound.act op) (bound_act bound op) next).mp later⟩
    · rintro ⟨fits, later⟩
      have next := step.mpr fits
      exact ⟨agree, (ih (sound.act op) (bound_act bound op) next).mpr later⟩

/-! Only the binding of appenders is to blame. -/

def CreationsAgree (x : Session) : Prop :=
  ∀ name c k, x.broker.codecOf? name = some c → k ∈ x.tickets → (∃ p ∈ k.partitions, p.log = name) →
    k.codec.map Codec.identity = some c.identity

/-- A log is bound to a codec that its open tailers and the creations in progress have. -/
def Binds (x : Session) : Operation → Prop
  | .appender name type (some c) => (x.broker.appender name type (some c)).isOk →
      x.broker.appenders.lookup name = none →
        (∀ t, x.Reads name t → t.codec.map Codec.identity = some c.identity) ∧
        ∀ k ∈ x.tickets, (∃ p ∈ k.partitions, p.log = name) →
          k.codec.map Codec.identity = some c.identity
  | _ => True

theorem creations_appender (bound : x.broker.Bound) (agree : CreationsAgree x) {name : String}
    {type : MessageType} {codec : Option Codec} (binds : x.Binds (.appender name type codec)) :
    CreationsAgree (x.act (.appender name type codec)) := by
  simp only [act]
  cases answer : x.broker.appender name type codec with
  | error e => exact agree
  | ok made =>
    obtain ⟨a, b⟩ := made
    rcases (appender_ok answer).2 with ⟨-, rfl⟩ | ⟨unknown, s, created, rfl⟩
    · exact agree
    · intro other c k known member asked
      replace known := (bind_codecOf? bound created other).symm.trans known
      by_cases same : other = name
      · rw [if_pos same] at known
        subst known same
        exact (binds (by rw [answer]; rfl) unknown).2 k member asked
      · rw [if_neg same] at known
        exact agree other c k known member asked

theorem creations_createTailer (agree : CreationsAgree x) (group : String)
    (partitions : List Partition) (type : MessageType) (codec : Option Codec) :
    CreationsAgree (x.act (.createTailer group partitions type codec)) := by
  have step := begins x.broker group partitions type codec
  simp only [act]
  generalize x.broker.beginTailer group partitions type codec = result at step
  generalize x.broker.nextTicket group partitions type codec = k at step
  obtain ⟨outcome, b⟩ := result
  cases step with
  | reserves _ _ checked =>
    rintro name c j known member ⟨p, asked, rfl⟩
    rw [tickets, List.filterMap_append] at member
    rcases List.mem_append.mp member with old | new
    · exact agree p.log c j known old ⟨p, asked, rfl⟩
    · cases List.mem_singleton.mp new
      exact checkLogs_ok checked (List.mem_eraseDups.mpr (List.mem_map_of_mem asked)) known
  | _ => exact agree

theorem tickets_ask (x : Session) (i : Nat) : (x.ask i).tickets = x.tickets := by
  unfold ask
  split
  · rename_i k there
    exact tickets_set there rfl
  · rename_i there
    exact tickets_set there rfl
  · rfl

theorem act_tickets (x : Session) {op : Operation}
    (other : ∀ group partitions type codec, op ≠ .createTailer group partitions type codec) :
    ∀ k ∈ (x.act op).tickets, k ∈ x.tickets := by
  intro k member
  cases op with
  | createTailer group partitions type codec => exact absurd rfl (other group partitions type codec)
  | subscribe group names type codec =>
    simp only [act] at member
    split at member
    · rw [tickets, List.filterMap_append] at member
      exact (List.mem_append.mp member).resolve_right fun impossible => by cases impossible
    · exact member
  | ask i => exact x.tickets_ask i ▸ member
  | finish i =>
    simp only [act, finish] at member
    split at member
    · exact (((List.eraseIdx_sublist _ _).filterMap _).subset member)
    · exact (((List.eraseIdx_sublist _ _).filterMap _).subset member)
    · exact member
  | create | delete | appender | close | store => exact member

theorem creations_act (bound : x.broker.Bound) (agree : CreationsAgree x) {op : Operation}
    (binds : x.Binds op) : CreationsAgree (x.act op) := by
  cases op with
  | appender name type codec => exact creations_appender bound agree binds
  | createTailer group partitions type codec =>
    exact creations_createTailer agree group partitions type codec
  | _ =>
    intro name c k known member asked
    refine agree name c k ((x.act_keeps ?_).codecOf? bound known) (x.act_tickets ?_ k member) asked
    · exact fun _ _ _ impossible => by cases impossible
    · exact fun _ _ _ _ impossible => by cases impossible

theorem Binds.fits (sound : Sound x) (agree : CreationsAgree x) {op : Operation}
    (binds : x.Binds op) : x.Fits op := by
  cases op with
  | appender name type codec =>
    cases codec with
    | none => trivial
    | some c => exact fun opens unknown => (binds opens unknown).1
  | finish i =>
    intro k r t there _ found _ p holds c known
    obtain ⟨t', found', _, assignments, codec⟩ :=
      (sound.created k r (List.mem_of_getElem? there)).tailer
    cases Option.some.inj (found'.symm.trans found)
    rw [codec]
    have member : k ∈ x.tickets :=
      List.mem_filterMap.mpr ⟨_, List.mem_of_getElem? there, rfl⟩
    exact agree p.log c k known member ⟨p, assignments ▸ holds, rfl⟩
  | _ => trivial

theorem along_fits (sound : Sound x) (bound : x.broker.Bound) (agree : CreationsAgree x)
    {ops : List Operation} (binds : Along Binds x ops) : Along Fits x ops := by
  induction ops generalizing x with
  | nil => trivial
  | cons op ops ih =>
    exact ⟨binds.1.fits sound agree, ih (sound.act op) (bound_act bound op)
      (creations_act bound agree binds.1) binds.2⟩

/-- Codecs agree in all states of a run exactly if each of its operations keeps them in agreement, and
they do if every log is bound to a codec that is in agreement with those who use the log by then. -/
theorem codec_agreement (config : StoreConfig) (limits : Limits) (ops : List Operation) :
    (Always TailersAgree (start config limits) ops ↔ Along Fits (start config limits) ops) ∧
      (Along Binds (start config limits) ops → Always TailersAgree (start config limits) ops) := by
  have sound := sound_start config limits
  have bound : (start config limits).broker.Bound := fun _ _ known => by cases known
  have agree : TailersAgree (start config limits) := fun _ _ _ known => by cases known
  have creations : CreationsAgree (start config limits) := fun _ _ _ known => by cases known
  have steps := always_agree sound bound agree ops
  exact ⟨steps, fun binds => steps.mpr (along_fits sound bound creations binds)⟩

def earlyBinding : List Operation :=
  [.create "e" 1, .appender "e" .string (some .binary),
    .createTailer "g" [⟨"e", 0⟩] .string (some .binary), .ask 0, .finish 0]

theorem earlyBinding_agrees : Along Binds (start {} {}) earlyBinding ∧
    ((start {} {}).run earlyBinding).explicit = [⟨"g", 0⟩] ∧
    Always TailersAgree (start {} {}) earlyBinding := by
  have binds : Along Binds (start {} {}) earlyBinding := by
    refine ⟨trivial, fun _ _ => ⟨?_, ?_⟩, trivial, trivial, trivial, trivial⟩
    · rintro t ⟨r, handed, _⟩
      cases handed
    · intro k member
      cases member
  have handed : ((start {} {}).run earlyBinding).explicit = [⟨"g", 0⟩] := by decide +kernel
  exact ⟨binds, handed, (codec_agreement {} {} earlyBinding).2 binds⟩

/-- A tailer with one codec is open when the appender of its log is bound to another. -/
def lateBinding : List Operation :=
  [.create "e" 1, .createTailer "g" [⟨"e", 0⟩] .string (some (.json .compact)), .ask 0, .finish 0,
    .appender "e" .string (some .binary)]

theorem lateBinding_disagrees : ¬TailersAgree ((start {} {}).run lateBinding) := by
  intro agree
  have bound : ((start {} {}).run lateBinding).broker.codecOf? "e" = some .binary := by
    decide +kernel
  have reads : Reads ((start {} {}).run lateBinding) "e"
      { type := .string, codec := some (.json .compact), subscribed := false
        assignments := [⟨"e", 0⟩], positions := [(⟨"e", 0⟩, 0)] } :=
    ⟨⟨"g", 0⟩, by decide +kernel, by decide +kernel, rfl, ⟨"e", 0⟩, by decide, rfl⟩
  have same := agree "e" .binary _ bound reads
  revert same
  decide

end Session

end Logbook.Broker
