import Logbook.Proofs.Success
import Logbook.Proofs.Store.Incarnations

/-! Appending: what an append stores, what it leaves alone, and why it fails. An appender whose log
was deleted stores nothing any more. -/
namespace Logbook.Store

variable {s s' : Store} {x index : Nat} {w : Appender} {m : Message} {key : String}
  {offset : Offset} {e : LogFault} {past : List Event}

/-- What a successful append does: the encoded message comes to the end of one partition of the log
that the appender was opened for, and nothing else changes. -/
structure Appended (s s' : Store) (w : Appender) (m : Message) (offset : Offset) : Prop where
  name : offset.partition.log = w.name
  previous : s.endOffset offset.partition = .ok offset.position
  stored : ∃ l l' records data, s.log? w.name = some l ∧ l.number = w.log ∧
    s'.log? w.name = some l' ∧ l'.number = w.log ∧
    (defaultCodec w.codec).encode m = .ok data ∧
    l.partitions[offset.partition.index]? = some records ∧
    ∀ i, l'.partitions[i]? =
      if i = offset.partition.index then some (records ++ [data]) else l.partitions[i]?
  otherLogs : ∀ name, name ≠ w.name → s'.log? name = s.log? name
  rest : s' = { s with logs := s'.logs }

/-- Why an append fails: each cause comes up if the ones before it do not. -/
inductive Refusal (s : Store) (x index : Nat) (m : Message) : LogFault → Prop where
  | closed : (∀ w, s.openAppender x ≠ .ok w) → Refusal s x index m (.closed .appender)
  | encoding {w : Appender} {f : Codec.EncodeFault} : s.openAppender x = .ok w →
      (defaultCodec w.codec).encode m = .error f →
      Refusal s x index m (.codec (.encode (defaultCodec w.codec) f))
  | deleted {w : Appender} {data : Bytes} : s.openAppender x = .ok w →
      (defaultCodec w.codec).encode m = .ok data → (∀ l ∈ s.logs, l.number ≠ w.log) →
      Refusal s x index m (.unknownLog w.name)
  | outOfRange {w : Appender} {data : Bytes} {l : Log} : s.openAppender x = .ok w →
      (defaultCodec w.codec).encode m = .ok data → l ∈ s.logs → l.number = w.log →
      w.size ≤ index → Refusal s x index m (.outOfRange ⟨w.name, index⟩ w.size)

theorem openAppender_error (refused : ∀ w, s.openAppender x ≠ .ok w) :
    s.openAppender x = .error (.closed .appender) := by
  unfold openAppender at refused ⊢
  cases found : s.appenders[x]? with
  | none => rfl
  | some w =>
    cases closed : w.closed with
    | true => simp [closed]
    | false => simp [found, closed] at refused

/-- The log of an appender is the one with its number. -/
theorem logOf_ok {l : Log} (found : s.logOf w = .ok l) : l ∈ s.logs ∧ l.number = w.log := by
  unfold logOf at found
  cases there : s.logs.find? (·.number = w.log) with
  | none => simp [there] at found
  | some k =>
    simp only [there, Except.ok.injEq] at found
    subst found
    exact ⟨List.mem_of_find?_eq_some there, by simpa using List.find?_some there⟩

theorem logOf_error : s.logOf w = .error e ↔
    e = .unknownLog w.name ∧ ∀ l ∈ s.logs, l.number ≠ w.log := by
  unfold logOf
  cases there : s.logs.find? (·.number = w.log) with
  | none =>
    have gone : ∀ l ∈ s.logs, l.number ≠ w.log := by simpa using List.find?_eq_none.mp there
    simp only [Except.error.injEq, eq_comm (a := LogFault.unknownLog w.name)]
    exact ⟨fun same => ⟨same, gone⟩, fun both => both.1⟩
  | some k =>
    simp only [reduceCtorEq, false_iff, not_and]
    intro _ gone
    exact gone k (List.mem_of_find?_eq_some there) (by simpa using List.find?_some there)

theorem Named.opened {l : Log} (named : Named s) (opened : s.openAppender x = .ok w)
    (there : l ∈ s.logs) (number : l.number = w.log) : l.name = w.name ∧ l.size = w.size :=
  (named.appenders w (List.mem_of_getElem? (openAppender_ok.mp opened).1)).2 l there number

/-- An append puts a record at the end of a partition, or is refused. -/
theorem appendTo_cases (named : Named s) (x index : Nat) (m : Message) :
    (∃ e, s.appendTo x index m = .error e ∧ Refusal s x index m e) ∨
      ∃ w l records data, s.openAppender x = .ok w ∧ l ∈ s.logs ∧ l.number = w.log ∧
        (defaultCodec w.codec).encode m = .ok data ∧ l.partitions[index]? = some records ∧
        s.appendTo x index m =
          .ok (⟨⟨l.name, index⟩, records.length⟩, s.putRecord l index data) := by
  unfold appendTo
  cases opened : s.openAppender x with
  | error e =>
    have refused : ∀ w, s.openAppender x ≠ .ok w := fun w open' => by cases opened.symm.trans open'
    cases opened.symm.trans (openAppender_error refused)
    exact .inl ⟨_, rfl, .closed refused⟩
  | ok w =>
    simp only [bind, Except.bind]
    cases coded : (defaultCodec w.codec).encode m with
    | error f => exact .inl ⟨_, rfl, .encoding opened coded⟩
    | ok data =>
      cases found : s.logOf w with
      | error e =>
        obtain ⟨rfl, gone⟩ := logOf_error.mp found
        exact .inl ⟨_, rfl, .deleted opened coded gone⟩
      | ok l =>
        obtain ⟨there, number⟩ := logOf_ok found
        have known := named.opened opened there number
        simp only [mapError_ok, pushRecord, Log.endOffset, Log.records, bind, Except.bind]
        cases stored : l.partitions[index]? with
        | none =>
          have outside : w.size ≤ index := known.2 ▸ List.getElem?_eq_none_iff.mp stored
          refine .inl ⟨_, rfl, ?_⟩
          rw [known.1, known.2]
          exact .outOfRange opened coded there number outside
        | some records => exact .inr ⟨w, l, records, data, rfl, there, number, coded, stored, rfl⟩

/-- An open appender whose log is there appends to a partition of the log whatever it can encode. -/
theorem appendTo_there {l : Log} (named : Named s) (opened : s.openAppender x = .ok w)
    (there : l ∈ s.logs) (number : l.number = w.log) (within : index < l.size) (m : Message) :
    (∃ f, (defaultCodec w.codec).encode m = .error f ∧
        s.appendTo x index m = .error (.codec (.encode (defaultCodec w.codec) f))) ∨
      ∃ data position s', (defaultCodec w.codec).encode m = .ok data ∧
        s.appendTo x index m = .ok (⟨⟨l.name, index⟩, position⟩, s') := by
  have known := named.opened opened there number
  rcases appendTo_cases named x index m with ⟨e, refused, why⟩ |
      ⟨v, k, records, data, opened', there', number', coded, -, whole⟩
  · rw [refused]
    cases why with
    | closed never => exact absurd opened (never w)
    | encoding opened' failed =>
      cases opened.symm.trans opened'
      exact .inl ⟨_, failed, rfl⟩
    | deleted opened' _ gone =>
      cases opened.symm.trans opened'
      exact absurd number (gone l there)
    | outOfRange opened' _ _ _ outside =>
      cases opened.symm.trans opened'
      rw [known.2] at within
      exact absurd within (Nat.not_lt_of_le outside)
  · cases opened.symm.trans opened'
    have name : k.name = l.name := (named.opened opened there' number').1.trans known.1.symm
    rw [whole, name]
    exact .inr ⟨_, _, _, coded, rfl⟩

theorem appended (named : Named s) (answer : s.appendTo x index m = .ok (offset, s')) :
    offset.partition.index = index ∧ ∃ w, s.openAppender x = .ok w ∧ Appended s s' w m offset := by
  rcases appendTo_cases named x index m with ⟨e, refused, -⟩ |
    ⟨w, l, records, data, opened, there, number, coded, stored, whole⟩
  · cases answer.symm.trans refused
  · cases answer.symm.trans whole
    have known := named.opened opened there number
    have found : s.log? w.name = some l := known.1 ▸ named.log? there
    refine ⟨rfl, w, opened, known.1, ?_, ?_, ?_, rfl⟩
    · have log : s.log l.name = .ok l := by rw [Store.log, known.1, found]
      simp only [endOffset, log, bind, Except.bind, Log.endOffset, Log.records, stored, Except.map]
    · refine ⟨l, l.push index data, records, data, found, number, ?_, number, coded, stored, ?_⟩
      · rw [log?_putRecord, found, Option.map_some, if_pos rfl]
      · intro i
        rw [Log.partitions_push]
        by_cases here : i = index
        · rw [here, stored, if_pos rfl, Option.map_some, if_pos rfl]
        · rw [if_neg here]
          cases l.partitions[i]? with
          | none => rfl
          | some rs => rw [Option.map_some, if_neg (Ne.symm here)]
    · intro name other
      rw [log?_putRecord]
      cases there' : s.log? name with
      | none => rfl
      | some k =>
        -- a log with another name is not the log with the number
        have apart : k.number ≠ l.number := by
          intro same
          obtain ⟨member, rfl⟩ := log?_mem there'
          exact other (named.opened opened member (same.trans number)).1
        rw [Option.map_some, if_neg apart]

theorem appendTo_error (named : Named s) :
    s.appendTo x index m = .error e ↔ Refusal s x index m e := by
  constructor
  · intro failed
    rcases appendTo_cases named x index m with
      ⟨_, refused, why⟩ | ⟨_, _, _, _, _, _, _, _, _, whole⟩
    · cases refused.symm.trans failed
      exact why
    · cases failed.symm.trans whole
  · intro why
    cases why with
    | closed refused =>
      simp only [appendTo, openAppender_error refused, bind, Except.bind]
    | encoding opened coded =>
      simp only [appendTo, opened, coded, bind, Except.bind, mapError_error]
    | @deleted w data opened coded gone =>
      have missing : s.logOf w = .error (.unknownLog w.name) := logOf_error.mpr ⟨rfl, gone⟩
      simp only [appendTo, opened, coded, missing, bind, Except.bind, mapError_ok]
    | @outOfRange w data l opened coded there number outside =>
      cases found : s.logOf w with
      | error e => exact absurd number ((logOf_error.mp found).2 l there)
      | ok k =>
        obtain ⟨there', number'⟩ := logOf_ok found
        obtain ⟨name, size⟩ := named.opened opened there' number'
        have missing : k.partitions[index]? = none := by
          rw [← size] at outside
          exact List.getElem?_eq_none_iff.mpr outside
        simp only [appendTo, opened, coded, found, pushRecord, Log.endOffset, Log.records, missing,
          name, size, bind, Except.bind, mapError_ok, Except.map]

theorem append_eq {x : Nat} {w : Appender} (found : s.appenders[x]? = some w) (key : String)
    (m : Message) : s.append x key m = s.appendTo x (partitionOfKey key w.size) m := by
  simp only [append, found]

theorem act_append_error (failed : s.append x key m = .error e) : s.act (.append x key m) = s := by
  rw [act, failed]
  rfl

theorem act_appendTo_error (failed : s.appendTo x index m = .error e) :
    s.act (.appendTo x index m) = s := by
  rw [act, failed]
  rfl

theorem logs_delete {name : String} (done : (s.delete name).1 = true) :
    (s.act (.delete name)).logs = s.logs.filter (·.name ≠ name) := by
  simp only [act]
  unfold delete at done ⊢
  split at done
  · rename_i allowed
    rw [if_pos allowed]
    rfl
  · cases done

/-- After the deletion of its log an appender has no log any more. -/
theorem detached (named : Named s) (found : s.appenders[x]? = some w)
    (done : (s.delete w.name).1 = true) (more : List Action) :
    ∀ l ∈ ((s.act (.delete w.name)).run more).logs, l.number ≠ w.log := by
  obtain ⟨below, fits⟩ := named.appenders w (List.mem_of_getElem? found)
  apply number_gone
  · exact Nat.lt_of_lt_of_le below (effect s (.delete w.name)).logs.1
  · intro l member number
    rw [logs_delete done] at member
    obtain ⟨there, spared⟩ := List.mem_filter.mp member
    exact of_decide_eq_true spared (fits l there number).1

/-- An appender without a log is refused. -/
theorem detached_refused (named : Named s) (found : s.appenders[x]? = some w)
    (gone : ∀ l ∈ s.logs, l.number ≠ w.log) (index : Nat) (m : Message) :
    ∃ e, s.appendTo x index m = .error e := by
  rcases appendTo_cases named x index m with ⟨e, refused, -⟩ |
    ⟨v, l, _, _, opened, there, number, -, -, -⟩
  · exact ⟨e, refused⟩
  · cases Option.some.inj ((openAppender_ok.mp opened).1.symm.trans found)
    exact absurd number (gone l there)

theorem create_new {name : String} {size : Nat} (absent : s.log? name = none)
    (answer : s.create name size = .ok s') :
    s'.log? name = some ⟨s.created, name, List.replicate size []⟩ := by
  obtain ⟨_, -, checked⟩ := bind_eq_ok.mp answer
  obtain ⟨_, -, created⟩ := bind_eq_ok.mp checked
  simp only [contains, absent] at created
  obtain rfl := Except.ok.inj created
  exact (log?_creates s name name size).trans (by rw [absent, if_pos rfl]; rfl)

theorem create_there {name : String} {l : Log} (found : s.log? name = some l) (size : Nat) :
    s.act (.create name size) = s := by
  have step := effect s (.create name size)
  generalize s.act (.create name size) = s' at step ⊢
  cases step with
  | keeps => rfl
  | creates _ absent => cases absent.symm.trans found
  | appends _ _ _ appended => cases appended
  | turns _ turn => cases turn
  | commits _ _ commits => cases commits

/-- What appending does in one state: an append that succeeds does what `Appended` says, to the
partition that was asked for or that of the key, it fails for the causes of `Refusal` and no others,
and then it does nothing. -/
structure AppendsAtEnds (s : Store) : Prop where
  appends : ∀ x index m offset s', s.appendTo x index m = .ok (offset, s') →
    offset.partition.index = index ∧ ∃ w, s.openAppender x = .ok w ∧ Appended s s' w m offset
  appendsByKey : ∀ x key m offset s', s.append x key m = .ok (offset, s') →
    ∃ w, s.openAppender x = .ok w ∧ offset.partition.index = partitionOfKey key w.size ∧
      Appended s s' w m offset
  fails : ∀ x index m e, s.appendTo x index m = .error e ↔ Refusal s x index m e
  failsByKey : ∀ x key m e, s.append x key m = .error e ↔ ∃ index, Refusal s x index m e ∧
    ∀ w, s.openAppender x = .ok w → index = partitionOfKey key w.size
  unchanged : ∀ x index m e, s.appendTo x index m = .error e → s.act (.appendTo x index m) = s
  unchangedByKey : ∀ x key m e, s.append x key m = .error e → s.act (.append x key m) = s

theorem Named.appendsAtEnds (named : Named s) : AppendsAtEnds s := by
  constructor
  case appends => exact fun x index m offset s' => appended named
  case appendsByKey =>
    intro x key m offset s' answer
    cases found : s.appenders[x]? with
    | none => simp [append, found] at answer
    | some v =>
      rw [append_eq found] at answer
      obtain ⟨place, w, opened, done⟩ := appended named answer
      cases Option.some.inj ((openAppender_ok.mp opened).1.symm.trans found)
      exact ⟨v, opened, place, done⟩
  case fails => exact fun x index m e => appendTo_error named
  case failsByKey =>
    intro x key m e
    cases found : s.appenders[x]? with
    | none =>
      have never : ∀ w, s.openAppender x ≠ .ok w := by
        intro w opened
        cases (openAppender_ok.mp opened).1.symm.trans found
      have closed : s.append x key m = s.appendTo x 0 m := by
        simp only [append, found, appendTo, openAppender_error never, bind, Except.bind]
      rw [closed, appendTo_error named]
      refine ⟨fun why => ⟨0, why, fun w opened => absurd opened (never w)⟩, ?_⟩
      rintro ⟨index, why, -⟩
      cases why with
      | closed => exact .closed never
      | encoding opened | deleted opened | outOfRange opened => exact absurd opened (never _)
    | some w =>
      rw [append_eq found, appendTo_error named]
      constructor
      · intro why
        refine ⟨_, why, fun v opened => ?_⟩
        cases Option.some.inj ((openAppender_ok.mp opened).1.symm.trans found)
        rfl
      · rintro ⟨index, why, place⟩
        cases opened : s.openAppender x with
        | ok v =>
          cases Option.some.inj ((openAppender_ok.mp opened).1.symm.trans found)
          exact place w opened ▸ why
        | error f =>
          cases why with
          | closed never => exact .closed never
          | encoding opened' | deleted opened' | outOfRange opened' =>
            cases opened.symm.trans opened'
  case unchanged => exact fun x index m e => act_appendTo_error
  case unchangedByKey => exact fun x key m e => act_append_error

/-- Logs are only appended to. A log begins with empty partitions, as many as asked for, and with a
number that no log had before, so that nothing is carried over to a log of the same name. Creating
it once more does nothing, and it stays and grows until it is deleted. After its deletion an
appender that was opened for it appends nothing, whatever is done. -/
structure AppendsOnly (start : Store) : Prop where
  begins : ∀ as name size s', (start.run as).log? name = none →
    (start.run as).create name size = .ok s' → ∃ l, s'.log? name = some l ∧
      l.partitions = List.replicate size [] ∧
      ∀ before, before <+: as → ∀ k ∈ (start.run before).logs, k.number ≠ l.number
  createdOnce : ∀ as name l size, (start.run as).log? name = some l →
    (start.run as).act (.create name size) = start.run as
  grows : ∀ as more name l, (start.run as).log? name = some l →
    Along (Spares name) (start.run as) more →
    ∃ l', ((start.run as).run more).log? name = some l' ∧ l.GrowsTo l'
  incarnations : ∀ as more l l', l ∈ (start.run as).logs → l' ∈ ((start.run as).run more).logs →
    l'.number = l.number → l.GrowsTo l'
  writes : ∀ as, AppendsAtEnds (start.run as)
  detached : ∀ as more x w, (start.run as).appenders[x]? = some w →
    ((start.run as).delete w.name).1 = true →
    (∀ index m, ∃ e,
      (((start.run as).act (.delete w.name)).run more).appendTo x index m = .error e) ∧
    ∀ key m, ∃ e, (((start.run as).act (.delete w.name)).run more).append x key m = .error e

theorem logs_append_only (config : StoreConfig) : AppendsOnly { config } := by
  have named (as : List Action) : Named (({ config } : Store).run as) := named_run as
  have recorded (as : List Action) :
      Recorded (({ config } : Store).run as) (({ config } : Store).history as) := recorded_run as
  constructor
  case begins =>
    intro as name size s' absent answer
    refine ⟨_, create_new absent answer, rfl, ?_⟩
    rintro before ⟨more, rfl⟩ k there
    -- whatever was there has a smaller number than the one that comes next
    have below := (recorded before).numbered there
    have later := (logs_run (({ config } : Store).run before) more).1
    rw [← run_append] at later
    exact Nat.ne_of_lt (Nat.lt_of_lt_of_le below later)
  case createdOnce => exact fun as name l size found => create_there found size
  case grows => exact fun as more name l => log_grows
  case incarnations =>
    intro as more l l' member member' number
    rcases (logs_run (({ config } : Store).run as) more).2 l' member' with ⟨k, old, grows⟩ | new
    · cases List.inj_on_of_nodup_map (recorded as).distinct old member
        (grows.number.symm.trans number)
      exact grows
    · have below := (recorded as).numbered member
      omega
  case writes => exact fun as => (named as).appendsAtEnds
  case detached =>
    intro as more x w found done
    have gone := Store.detached (named as) found done more
    have later : Named (((({ config } : Store).run as).act (.delete w.name)).run more) := by
      have whole := named (as ++ .delete w.name :: more)
      rw [run_append] at whole
      exact whole
    obtain ⟨closed, there, -⟩ := appenderStays_run found (.delete w.name :: more)
    rw [run_cons] at there
    refine ⟨fun index m => detached_refused later there gone index m, fun key m => ?_⟩
    rw [append_eq there]
    exact detached_refused later there gone _ m

end Logbook.Store
