import Logbook.Codec.Catalog
import Logbook.Proofs.Success

/-! Catalogs over runs of calls: under each name counts the descriptor that was accepted last, and its
codecs are shared until the next one is accepted. -/
namespace Logbook

inductive Descriptor.Describes (d : Descriptor) (t : MessageType) : Codec → Prop where
  | binary : Implementation.parse d.implementation = .ok .binary → Describes d t .binary
  | frame : Implementation.parse d.implementation = .ok .message →
      Describes d t (.frame ((d.options.get? "schema").getD t.schema))
  | json : Implementation.parse d.implementation = .ok .json →
      Describes d t (.json (if d.options.get? "pretty" = some "true" then .pretty else .compact))
  | fixed : Implementation.parse d.implementation = .ok .record → t.isRecord = true →
      Describes d t .fixed

namespace Descriptor

variable {d : Descriptor} {choice : Choice} {t : MessageType} {k : Codec}

theorem choice_eq_ok (chosen : d.choice = .ok choice) :
    Implementation.parse d.implementation = .ok choice.implementation ∧
      Choice.readPretty choice.implementation (d.options.get? "pretty") = .ok choice.pretty ∧
      Choice.readSchema choice.implementation (d.options.get? "schema") = .ok choice.schema := by
  rw [Descriptor.choice, check_eq_ok, mapError_eq_ok] at chosen
  obtain ⟨i, parsed, chosen⟩ := bind_eq_ok.mp chosen.2
  obtain ⟨pretty, prettyRead, chosen⟩ := bind_eq_ok.mp chosen
  obtain ⟨schema, schemaRead, made⟩ := bind_eq_ok.mp chosen
  cases made
  exact ⟨parsed, prettyRead, schemaRead⟩

theorem readPretty_json {value : Option String} {pretty : Bool}
    (read : Choice.readPretty .json value = .ok pretty) : pretty = decide (value = some "true") := by
  cases value with
  | none =>
    cases read
    rfl
  | some text =>
    rw [Choice.readPretty, check_eq_ok] at read
    obtain ⟨-, read⟩ := read
    split at read
    case isTrue yes =>
      cases read
      simp [yes]
    case isFalse other =>
      split at read
      all_goals
        cases read
      simp [other]

theorem readSchema_message {value schema : Option String}
    (read : Choice.readSchema .message value = .ok schema) : schema = value := by
  cases value with
  | none =>
    cases read
    rfl
  | some text =>
    rw [Choice.readSchema, check_eq_ok] at read
    cases read.2
    rfl

/-- What a descriptor describes is what its choice makes. -/
theorem describes_iff (chosen : d.choice = .ok choice) :
    choice.codec? t = some k ↔ d.Describes t k := by
  obtain ⟨parsed, prettyRead, schemaRead⟩ := choice_eq_ok chosen
  obtain ⟨i, pretty, schema⟩ := choice
  have only {j : Implementation} (other : Implementation.parse d.implementation = .ok j) : j = i :=
    Except.ok.inj (other.symm.trans parsed)
  cases i with
  | binary =>
    constructor
    · rintro ⟨⟩
      exact .binary parsed
    · intro describes
      cases describes with
      | binary => rfl
      | frame other | json other | fixed other => cases only other
  | message =>
    obtain rfl := readSchema_message schemaRead
    constructor
    · rintro ⟨⟩
      exact .frame parsed
    · intro describes
      cases describes with
      | frame => rfl
      | binary other | json other | fixed other => cases only other
  | json =>
    obtain rfl := readPretty_json prettyRead
    constructor
    · rintro ⟨⟩
      simp only [decide_eq_true_eq]
      exact .json parsed
    · intro describes
      cases describes with
      | json => simp [Choice.codec?]
      | binary other | frame other | fixed other => cases only other
  | record =>
    constructor
    · intro made
      simp only [Choice.codec?, Option.ite_none_right_eq_some, Option.some.injEq] at made
      obtain ⟨carried, rfl⟩ := made
      exact .fixed parsed carried
    · intro describes
      cases describes with
      | fixed _ carried => simp [Choice.codec?, carried]
      | binary other | frame other | json other => cases only other

/-- Only the fixed layout makes nothing of messages that are no records. -/
theorem codec?_eq_none (chosen : d.choice = .ok choice) : choice.codec? t = none ↔
    Implementation.parse d.implementation = .ok .record ∧ t.isRecord = false := by
  obtain ⟨parsed, -, -⟩ := choice_eq_ok chosen
  obtain ⟨i, pretty, schema⟩ := choice
  rw [parsed]
  cases i <;> simp [Choice.codec?]

end Descriptor

/-- A registration is what its descriptor chooses, and its instances were made by that choice, with
numbers below the next one. -/
structure Registration.Sound (n : Nat) (r : Registration) : Prop where
  chosen : r.descriptor.choice = .ok r.choice
  made : ∀ t i, r.instances.lookup t = some i → r.choice.codec? t = some i.codec ∧ i.number < n

namespace Catalog

inductive Call where
  | register (d : Descriptor)
  | get (name : String) (t : MessageType)

inductive Answer where
  | registered (refusal : Option ConfigFault)
  | got (found : Option CodecInstance)

def perform (c : Catalog) : Call → Answer × Catalog
  | .register d =>
    match c.register d with
    | .ok c => (.registered none, c)
    | .error fault => (.registered (some fault), c)
  | .get name t =>
    match c.get? name t with
    | some (i, c) => (.got (some i), c)
    | none => (.got none, c)

def run (c : Catalog) (calls : List Call) : Catalog := calls.foldl (fun c call => (c.perform call).2) c

def answers (c : Catalog) : List Call → List Answer
  | [] => []
  | call :: calls => (c.perform call).1 :: (c.perform call).2.answers calls

/-- The descriptor that a call registers. -/
def Call.accepted? : Call → Option Descriptor
  | register d => if d.choice.isOk then some d else none
  | get _ _ => none

def accepted (calls : List Call) : List Descriptor := calls.filterMap Call.accepted?

def lastAccepted (calls : List Call) (name : String) : Option Descriptor :=
  (accepted calls).reverse.find? (·.name = name)

variable {c c' : Catalog} {d : Descriptor} {r : Registration} {i : CodecInstance} {name : String}
  {t : MessageType} {n : Nat} {call : Call} {calls : List Call} {choice : Choice}

theorem run_cons (c : Catalog) (call : Call) (calls : List Call) :
    c.run (call :: calls) = (c.perform call).2.run calls := rfl

theorem run_append (c : Catalog) (before after : List Call) :
    c.run (before ++ after) = (c.run before).run after := List.foldl_append

theorem answers_append (c : Catalog) (before after : List Call) :
    c.answers (before ++ after) = c.answers before ++ (c.run before).answers after := by
  induction before generalizing c with
  | nil => rfl
  | cons call before ih => simp only [List.cons_append, answers, ih, run_cons]

theorem length_answers (c : Catalog) (calls : List Call) : (c.answers calls).length = calls.length := by
  induction calls generalizing c with
  | nil => rfl
  | cons call calls ih => rw [answers, List.length_cons, ih, List.length_cons]

/-! What one call does. -/

theorem find?_put (c : Catalog) (r : Registration) (name : String) :
    (c.put r).find? name = if r.descriptor.name = name then some r else c.find? name := by
  simp only [find?, put]
  by_cases same : r.descriptor.name = name
  · rw [List.find?_cons_of_pos (by simpa using same), if_pos same]
  · rw [List.find?_cons_of_neg (by simpa using same), if_neg same, List.find?_filter]
    congr 1
    funext other
    by_cases named : other.descriptor.name = name
    · simp [named, Ne.symm same]
    · simp [named]

theorem register_eq_ok :
    c.register d = .ok c' ↔ ∃ choice, d.choice = .ok choice ∧ c' = c.put { descriptor := d, choice } := by
  rw [register, bind_eq_ok]
  apply exists_congr
  intro choice
  apply and_congr_right
  intro _
  constructor
  · rintro ⟨⟩
    rfl
  · rintro rfl
    rfl

theorem register_eq_error {fault : ConfigFault} :
    c.register d = .error fault ↔ d.choice = .error fault := by
  rw [register]
  cases d.choice with
  | ok choice => exact ⟨nofun, nofun⟩
  | error other => exact ⟨fun same => by cases same; rfl, fun same => by cases same; rfl⟩

def shared? (c : Catalog) (name : String) (t : MessageType) : Option CodecInstance :=
  (c.find? name).bind (·.instances.lookup t)

/-- What a catalog answers for a name: the shared instance, or a new one that is shared from then
on. -/
inductive Gets (c : Catalog) (name : String) (t : MessageType) (i : CodecInstance) : Catalog → Prop
  | known : c.shared? name t = some i → Gets c name t i c
  | made (r : Registration) : c.find? name = some r → r.instances.lookup t = none →
      r.choice.codec? t = some i.codec → i.number = c.nextInstance →
      Gets c name t i { c.put { r with instances := (t, i) :: r.instances } with
        nextInstance := c.nextInstance + 1 }

theorem get?_eq_some : c.get? name t = some (i, c') ↔ Gets c name t i c' := by
  constructor
  · intro answer
    rw [get?] at answer
    cases found : c.find? name with
    | none => simp [found] at answer
    | some r =>
      cases known : r.instances.lookup t with
      | some j =>
        simp only [found, known, bind, Option.bind_some] at answer
        cases answer
        exact .known (by simp [shared?, found, known])
      | none =>
        cases made : r.choice.codec? t with
        | none => simp [found, known, made] at answer
        | some k =>
          simp only [found, known, made, bind, Option.bind_some] at answer
          cases answer
          exact .made r found known made rfl
  · intro gets
    cases gets with
    | known known =>
      obtain ⟨r, found, known⟩ := Option.bind_eq_some_iff.mp known
      simp [get?, found, known]
    | made r found known made number =>
      obtain ⟨number, codec⟩ := i
      subst number
      simp [get?, found, known, made, put]

theorem get?_eq_none : c.get? name t = none ↔
    ∀ r, c.find? name = some r → r.instances.lookup t = none ∧ r.choice.codec? t = none := by
  rw [get?]
  cases found : c.find? name with
  | none => exact ⟨fun _ => nofun, fun _ => rfl⟩
  | some r =>
    simp only [bind, Option.bind_some, Option.some.injEq, forall_eq']
    cases known : r.instances.lookup t with
    | some i => exact ⟨nofun, nofun⟩
    | none =>
      cases made : r.choice.codec? t with
      | none => exact ⟨fun _ => ⟨rfl, rfl⟩, fun _ => rfl⟩
      | some k => exact ⟨nofun, nofun⟩

/-- What a call does to a catalog. -/
inductive Moves (c : Catalog) : Call → Catalog → Prop
  | registers (d : Descriptor) (choice : Choice) : d.choice = .ok choice →
      Moves c (.register d) (c.put { descriptor := d, choice })
  | gets (name : String) (t : MessageType) (i : CodecInstance) (c' : Catalog) :
      Gets c name t i c' → Moves c (.get name t) c'
  | stays (call : Call) : call.accepted? = none → Moves c call c

theorem accepted?_register (chosen : d.choice = .ok choice) :
    (Call.register d).accepted? = some d := by
  simp [Call.accepted?, chosen, Except.isOk, Except.toBool]

theorem moves (c : Catalog) (call : Call) : Moves c call (c.perform call).2 := by
  cases call with
  | register d =>
    cases result : c.register d with
    | ok c' =>
      obtain ⟨choice, chosen, rfl⟩ := register_eq_ok.mp result
      simp only [perform, result]
      exact .registers d choice chosen
    | error fault =>
      have refused := register_eq_error.mp result
      simp only [perform, result]
      exact .stays _ (by simp [Call.accepted?, refused, Except.isOk, Except.toBool])
  | get name t =>
    cases result : c.get? name t with
    | some answer =>
      simp only [perform, result]
      exact .gets name t answer.1 answer.2 (get?_eq_some.mp result)
    | none =>
      simp only [perform, result]
      exact .stays _ rfl

theorem find?_name (found : c.find? name = some r) : r.descriptor.name = name := by
  simpa using List.find?_some found

/-! The instances. -/

theorem shared?_put (c : Catalog) (r : Registration) (name : String) (t : MessageType) :
    (c.put r).shared? name t =
      if r.descriptor.name = name then r.instances.lookup t else c.shared? name t := by
  rw [shared?, find?_put]
  split
  · rfl
  · rfl

theorem shared?_made (found : c.find? name = some r) (i : CodecInstance) (name' : String)
    (t' : MessageType) :
    ({ c.put { r with instances := (t, i) :: r.instances } with
        nextInstance := c.nextInstance + 1 } : Catalog).shared? name' t' =
      if name = name' ∧ t' = t then some i else c.shared? name' t' := by
  have named := find?_name found
  refine (shared?_put c { r with instances := (t, i) :: r.instances } name' t').trans ?_
  simp only [named, List.lookup_cons]
  by_cases same : name = name'
  · subst same
    by_cases typed : t' = t
    · simp [typed]
    · simp [typed, beq_false_of_ne typed, shared?, found]
  · simp [same]

theorem Gets.shared (gets : Gets c name t i c') : c'.shared? name t = some i := by
  cases gets with
  | known known => exact known
  | made r found known made number => rw [shared?_made found, if_pos ⟨rfl, rfl⟩]

def Fresh (n : Nat) (name : String) (c : Catalog) : Prop :=
  n ≤ c.nextInstance ∧ ∀ t i, c.shared? name t = some i → n ≤ i.number

theorem Gets.fresh {name' : String} (gets : Gets c name' t i c') (fresh : c.Fresh n name) :
    c'.Fresh n name := by
  cases gets with
  | known => exact fresh
  | made r found known made number =>
    refine ⟨Nat.le_succ_of_le fresh.1, ?_⟩
    intro t' j shared
    rw [shared?_made found] at shared
    split at shared
    case isTrue =>
      cases shared
      rw [number]
      exact fresh.1
    case isFalse => exact fresh.2 t' j shared

theorem Gets.number (gets : Gets c name t i c') (fresh : c.Fresh n name) : n ≤ i.number :=
  (gets.fresh fresh).2 t i gets.shared

theorem Moves.fresh (moves : Moves c call c') (fresh : c.Fresh n name) : c'.Fresh n name := by
  cases moves with
  | registers d choice chosen =>
    refine ⟨fresh.1, ?_⟩
    intro t i shared
    rw [shared?_put] at shared
    split at shared
    · cases shared
    · exact fresh.2 t i shared
  | gets name t i c' gets => exact gets.fresh fresh
  | stays => exact fresh

theorem Fresh.run (fresh : c.Fresh n name) : (c.run calls).Fresh n name := by
  induction calls generalizing c with
  | nil => exact fresh
  | cons call calls ih => exact ih ((moves c call).fresh fresh)

/-- What is shared stays so until the name is registered again. -/
theorem Moves.shared (moves : Moves c call c') (shared : c.shared? name t = some i)
    (others : ∀ d, call.accepted? = some d → d.name ≠ name) : c'.shared? name t = some i := by
  cases moves with
  | registers d choice chosen =>
    rw [shared?_put, if_neg (others d (accepted?_register chosen))]
    exact shared
  | gets name' t' j c' gets =>
    cases gets with
    | known => exact shared
    | made r found known made number =>
      rw [shared?_made found]
      split
      case isTrue same =>
        obtain ⟨rfl, rfl⟩ := same
        simp [shared?, found, known] at shared
      case isFalse => exact shared
  | stays => exact shared

theorem mem_accepted : d ∈ accepted calls ↔ ∃ call ∈ calls, call.accepted? = some d :=
  List.mem_filterMap

theorem shared?_run (shared : c.shared? name t = some i)
    (others : ∀ d ∈ accepted calls, d.name ≠ name) : (c.run calls).shared? name t = some i := by
  induction calls generalizing c with
  | nil => exact shared
  | cons call calls ih =>
    apply ih
    · apply (moves c call).shared shared
      exact fun d is => others d (mem_accepted.mpr ⟨call, List.mem_cons_self, is⟩)
    · intro d is
      obtain ⟨later, member, is⟩ := mem_accepted.mp is
      exact others d (mem_accepted.mpr ⟨later, List.mem_cons_of_mem call member, is⟩)

theorem Gets.eq_of_shared {j : CodecInstance} (shared : c.shared? name t = some i)
    (gets : Gets c name t j c') : j = i := by
  cases gets with
  | known known => exact Option.some.inj (known.symm.trans shared)
  | made r found none => simp [shared?, found, none] at shared

theorem Moves.nextInstance (moves : Moves c call c') : c.nextInstance ≤ c'.nextInstance := by
  cases moves with
  | registers => exact Nat.le_refl _
  | gets name t i c' gets =>
    cases gets with
    | known => exact Nat.le_refl _
    | made => exact Nat.le_succ _
  | stays => exact Nat.le_refl _

theorem nextInstance_run (c : Catalog) (calls : List Call) :
    c.nextInstance ≤ (c.run calls).nextInstance := by
  induction calls generalizing c with
  | nil => exact Nat.le_refl _
  | cons call calls ih => exact Nat.le_trans (moves c call).nextInstance (ih _)

/-- A name that is registered has no instances yet. -/
theorem Moves.renewed (moves : Moves c call c') (registered : call.accepted? = some d) :
    c'.Fresh c.nextInstance d.name := by
  cases moves with
  | registers e choice chosen =>
    cases (accepted?_register chosen).symm.trans registered
    refine ⟨Nat.le_refl _, ?_⟩
    intro t i shared
    rw [shared?_put, if_pos rfl] at shared
    cases shared
  | gets => cases registered
  | stays call none => cases none.symm.trans registered

theorem renewed_run (registered : d ∈ accepted calls) :
    (c.run calls).Fresh c.nextInstance d.name := by
  obtain ⟨call, member, is⟩ := mem_accepted.mp registered
  obtain ⟨before, after, rfl⟩ := List.append_of_mem member
  rw [run_append, run_cons]
  have anew := (moves (c.run before) call).renewed is
  obtain ⟨next, fresh⟩ : (((c.run before).perform call).2.run after).Fresh _ d.name := anew.run
  have later := nextInstance_run c before
  exact ⟨Nat.le_trans later next, fun t i shared => Nat.le_trans later (fresh t i shared)⟩

/-! Every state of a run. -/

structure Sound (c : Catalog) : Prop where
  each : ∀ r ∈ c.registrations, r.Sound c.nextInstance
  once : (c.registrations.map (·.descriptor.name)).Nodup

theorem Sound.put (sound : c.Sound) (new : r.Sound c.nextInstance) : (c.put r).Sound := by
  constructor
  case each =>
    intro s member
    rcases List.mem_cons.mp member with rfl | kept
    · exact new
    · exact sound.each s (List.mem_filter.mp kept).1
  case once =>
    refine List.nodup_cons.mpr ⟨?_, sound.once.sublist (List.filter_sublist.map _)⟩
    intro there
    obtain ⟨s, kept, named⟩ := List.mem_map.mp there
    simpa [named] using (List.mem_filter.mp kept).2

theorem Sound.later (sound : c.Sound) :
    ({ c with nextInstance := c.nextInstance + 1 } : Catalog).Sound := by
  refine ⟨fun r member => ?_, sound.once⟩
  have known := sound.each r member
  exact ⟨known.chosen, fun t i there => ⟨(known.made t i there).1,
    Nat.lt_succ_of_lt (known.made t i there).2⟩⟩

theorem Sound.found (sound : c.Sound) (found : c.find? name = some r) : r.Sound c.nextInstance :=
  sound.each r (List.mem_of_find?_eq_some found)

theorem Moves.sound (moves : Moves c call c') (sound : c.Sound) : c'.Sound := by
  cases moves with
  | registers d choice chosen => exact sound.put ⟨chosen, nofun⟩
  | gets name t i c' gets =>
    cases gets with
    | known => exact sound
    | made r found known made number =>
      apply Sound.put sound.later
      have old := sound.later.each r (List.mem_of_find?_eq_some found)
      refine ⟨old.chosen, ?_⟩
      intro t' j there
      rw [List.lookup_cons] at there
      split at there
      case h_1 same =>
        cases there
        rw [eq_of_beq same]
        exact ⟨made, number ▸ Nat.lt_succ_self _⟩
      case h_2 => exact old.made t' j there
  | stays => exact sound

theorem sound_run (sound : c.Sound) : (c.run calls).Sound := by
  induction calls generalizing c with
  | nil => exact sound
  | cons call calls ih => exact ih ((moves c call).sound sound)

theorem sound_empty : Sound {} := ⟨nofun, .nil⟩

/-! The descriptors. -/

theorem descriptor?_put (c : Catalog) (r : Registration) (name : String) :
    (c.put r).descriptor? name =
      if r.descriptor.name = name then some r.descriptor else c.descriptor? name := by
  rw [descriptor?, find?_put]
  split
  · rfl
  · rfl

theorem Moves.descriptor? (moves : Moves c call c') (name : String) : c'.descriptor? name =
    (call.accepted?.filter (·.name = name)).or (c.descriptor? name) := by
  cases moves with
  | registers d choice chosen =>
    rw [descriptor?_put, accepted?_register chosen]
    by_cases same : d.name = name
    · simp [same, Option.filter]
    · simp [same, Option.filter]
  | gets name' t i c' gets =>
    cases gets with
    | known => rfl
    | made r found known made number =>
      refine (descriptor?_put c { r with instances := (t, i) :: r.instances } name).trans ?_
      by_cases same : r.descriptor.name = name
      · rw [find?_name found] at same
        subst same
        simp [Catalog.descriptor?, found, find?_name found, Call.accepted?]
      · simp [same, Call.accepted?]
  | stays call none => simp [none]

theorem lastAccepted_cons (call : Call) (calls : List Call) (name : String) :
    lastAccepted (call :: calls) name =
      (lastAccepted calls name).or (call.accepted?.filter (·.name = name)) := by
  cases registered : call.accepted? with
  | none => simp [lastAccepted, accepted, registered]
  | some d =>
    have first : accepted (call :: calls) = d :: accepted calls :=
      List.filterMap_cons_some registered
    rw [lastAccepted, first, List.reverse_cons, List.find?_append, lastAccepted]
    by_cases same : d.name = name
    · simp [same, Option.filter]
    · simp [same, Option.filter]

theorem descriptor?_run (c : Catalog) (calls : List Call) (name : String) :
    (c.run calls).descriptor? name = (lastAccepted calls name).or (c.descriptor? name) := by
  induction calls generalizing c with
  | nil => rfl
  | cons call calls ih =>
    rw [run_cons, ih, (moves c call).descriptor?, lastAccepted_cons, Option.or_assoc]

/-- What is found after a run is what was accepted last. -/
theorem found_run (found : (run {} calls).find? name = some r) :
    lastAccepted calls name = some r.descriptor ∧ r.Sound (run {} calls).nextInstance := by
  refine ⟨?_, (sound_run sound_empty).found found⟩
  have view := descriptor?_run {} calls name
  rw [descriptor?, found] at view
  simpa [descriptor?, find?] using view.symm

theorem find?_run_none : (run {} calls).find? name = none ↔ lastAccepted calls name = none := by
  have view := descriptor?_run {} calls name
  rw [descriptor?] at view
  rw [← Option.map_eq_none_iff, view]
  simp [descriptor?, find?]

theorem lastAccepted_ne_none :
    lastAccepted calls name ≠ none ↔ ∃ d ∈ accepted calls, d.name = name := by
  simp [lastAccepted]

theorem mem_names : name ∈ c.names ↔ c.find? name ≠ none := by
  simp [names, find?]

theorem Sound.names_increase (sound : c.Sound) : c.names.Pairwise (· < ·) := by
  have sorted : c.names.Pairwise fun a b => a ≤ b := by
    have ordered : c.names.Pairwise fun a b => decide (a ≤ b) = true :=
      List.pairwise_mergeSort (fun a b d => by simpa using String.le_trans)
        (fun a b => by simpa using String.le_total a b) (c.registrations.map (·.descriptor.name))
    simpa using ordered
  have once : c.names.Nodup := (List.mergeSort_perm _ _).nodup_iff.mpr sound.once
  refine (sorted.and once).imp ?_
  rintro a b ⟨le, ne⟩
  exact String.not_le.mp fun back => ne (String.le_antisymm le back)

/-! What a run is answered. -/

theorem Gets.sound (gets : Gets c name t i c') (sound : c.Sound) : c'.Sound :=
  (Moves.gets name t i c' gets).sound sound

theorem Gets.describes (gets : Gets c name t i c') (sound : c.Sound) :
    ∃ r, c.find? name = some r ∧ r.descriptor.Describes t i.codec := by
  cases gets with
  | known shared =>
    obtain ⟨r, found, known⟩ := Option.bind_eq_some_iff.mp shared
    have registered := sound.found found
    exact ⟨r, found, (Descriptor.describes_iff registered.chosen).mp (registered.made t i known).1⟩
  | made r found none made =>
    exact ⟨r, found, (Descriptor.describes_iff (sound.found found).chosen).mp made⟩

theorem Gets.number_lt (gets : Gets c name t i c') (sound : c.Sound) : i.number < c'.nextInstance := by
  obtain ⟨r, found, known⟩ := Option.bind_eq_some_iff.mp gets.shared
  exact (((gets.sound sound).found found).made t i known).2

theorem get?_run_none (calls : List Call) (name : String) (t : MessageType) :
    (run {} calls).get? name t = none ↔
      lastAccepted calls name = none ∨ ∃ d, lastAccepted calls name = some d ∧
        Implementation.parse d.implementation = .ok .record ∧ t.isRecord = false := by
  rw [get?_eq_none]
  cases found : (run {} calls).find? name with
  | none => simp [find?_run_none.mp found]
  | some r =>
    obtain ⟨last, registered⟩ := found_run found
    simp only [last, Option.some.injEq, forall_eq', reduceCtorEq, false_or, exists_eq_left',
      ← Descriptor.codec?_eq_none registered.chosen]
    refine and_iff_right_of_imp fun nothing => ?_
    cases known : r.instances.lookup t with
    | none => rfl
    | some i => cases nothing.symm.trans (registered.made t i known).1

/-- Two answers for a name and a type are the same instance, unless the name was registered between
them; then the later one has a number of its own. -/
theorem Gets.shared_run {c'' : Catalog} {j : CodecInstance} (sound : c.Sound)
    (first : Gets c name t i c') (second : Gets (c'.run calls) name t j c'') :
    (i.number = j.number → i = j) ∧ (i = j ↔ ∀ d ∈ accepted calls, d.name ≠ name) := by
  by_cases others : ∀ d ∈ accepted calls, d.name ≠ name
  · have same : j = i := second.eq_of_shared (shared?_run first.shared others)
    exact ⟨fun _ => same.symm, fun _ => others, fun _ => same.symm⟩
  · have later : i.number < j.number := by
      simp only [Classical.not_forall, Decidable.not_not] at others
      obtain ⟨d, registered, rfl⟩ := others
      exact Nat.lt_of_lt_of_le (first.number_lt sound) (second.number (renewed_run registered))
    refine ⟨fun same => absurd same (Nat.ne_of_lt later), ?_, fun never => absurd never others⟩
    rintro rfl
    exact absurd later (Nat.lt_irrefl _)

/-! Registering a list of descriptors. -/

theorem ofDescriptors_ok (ds : List Descriptor) (c : Catalog) : ds.foldlM register c = .ok c' ↔
    (∀ d ∈ ds, ∃ choice, d.choice = .ok choice) ∧ c' = c.run (ds.map .register) := by
  induction ds generalizing c with
  | nil => simp [run, pure, Except.pure, eq_comm]
  | cons d ds ih =>
    rw [List.foldlM_cons, bind_eq_ok, List.forall_mem_cons, List.map_cons, run_cons]
    constructor
    · rintro ⟨next, first, rest⟩
      obtain ⟨others, rfl⟩ := (ih next).mp rest
      obtain ⟨choice, chosen, -⟩ := register_eq_ok.mp first
      exact ⟨⟨⟨choice, chosen⟩, others⟩, by simp only [perform, first]⟩
    · rintro ⟨⟨⟨choice, chosen⟩, others⟩, rfl⟩
      have first : c.register d = .ok _ := register_eq_ok.mpr ⟨choice, chosen, rfl⟩
      exact ⟨_, first, (ih _).mpr ⟨others, by simp only [perform, first]⟩⟩

theorem ofDescriptors_error (ds : List Descriptor) (c : Catalog) {fault : ConfigFault} :
    ds.foldlM register c = .error fault ↔ ∃ before d after, ds = before ++ d :: after ∧
      (∀ e ∈ before, ∃ choice, e.choice = .ok choice) ∧ d.choice = .error fault := by
  induction ds generalizing c with
  | nil => simp [pure, Except.pure]
  | cons d ds ih =>
    rw [List.foldlM_cons]
    cases first : c.register d with
    | error refused =>
      have none := register_eq_error.mp first
      constructor
      · rintro ⟨⟩
        exact ⟨[], d, ds, rfl, nofun, none⟩
      · rintro ⟨before, e, after, split, accepted, refusal⟩
        cases before with
        | nil =>
          cases split
          exact congrArg Except.error (Except.error.inj (none.symm.trans refusal))
        | cons e before =>
          cases split
          obtain ⟨choice, chosen⟩ := accepted d List.mem_cons_self
          cases none.symm.trans chosen
    | ok next =>
      obtain ⟨choice, chosen, -⟩ := register_eq_ok.mp first
      refine (ih next).trans ⟨?_, ?_⟩
      · rintro ⟨before, e, after, rfl, accepted, refusal⟩
        exact ⟨d :: before, e, after, rfl,
          List.forall_mem_cons.mpr ⟨⟨choice, chosen⟩, accepted⟩, refusal⟩
      · rintro ⟨before, e, after, split, accepted, refusal⟩
        cases before with
        | nil =>
          cases split
          cases chosen.symm.trans refusal
        | cons e before =>
          cases split
          exact ⟨before, _, after, rfl, (List.forall_mem_cons.mp accepted).2, refusal⟩

/-- A refused registration shows in its own answer and nowhere else. -/
theorem perform_refused {fault : ConfigFault} (refused : d.choice = .error fault) (c : Catalog) :
    c.perform (.register d) = (.registered (some fault), c) := by
  simp only [perform, register_eq_error.mpr refused]

/-- A catalog as the map of what was accepted last, with instances that are shared. -/
structure LastAcceptedWins : Prop where
  refuses : ∀ c d fault, register c d = .error fault ↔ d.choice = .error fault
  absent : ∀ calls name t, (run {} calls).get? name t = none ↔
    lastAccepted calls name = none ∨ ∃ d, lastAccepted calls name = some d ∧
      Implementation.parse d.implementation = .ok .record ∧ t.isRecord = false
  described : ∀ calls name t i c, (run {} calls).get? name t = some (i, c) →
    ∃ d, lastAccepted calls name = some d ∧ d.Describes t i.codec
  shared : ∀ before between name t i j c c', (run {} before).get? name t = some (i, c) →
    (run {} (before ++ .get name t :: between)).get? name t = some (j, c') →
      (i.number = j.number → i = j) ∧ (i = j ↔ ∀ d ∈ accepted between, d.name ≠ name)
  refused : ∀ before d after fault, d.choice = .error fault →
    run {} (before ++ .register d :: after) = run {} (before ++ after) ∧
      answers {} (before ++ .register d :: after) = answers {} before ++
        .registered (some fault) :: (answers {} (before ++ after)).drop before.length
  descriptors : ∀ calls name, (run {} calls).descriptor? name = lastAccepted calls name
  names : ∀ calls, (run {} calls).names.Pairwise (· < ·) ∧
    ∀ name, name ∈ (run {} calls).names ↔ ∃ d ∈ accepted calls, d.name = name
  configured : ∀ ds c, ofDescriptors ds = .ok c ↔
    (∀ d ∈ ds, ∃ choice, d.choice = .ok choice) ∧ c = run {} (ds.map .register)
  misconfigured : ∀ ds fault, ofDescriptors ds = .error fault ↔
    ∃ before d after, ds = before ++ d :: after ∧
      (∀ e ∈ before, ∃ choice, e.choice = .ok choice) ∧ d.choice = .error fault

theorem last_accepted_wins : LastAcceptedWins := by
  constructor
  case refuses => exact fun c d fault => register_eq_error
  case absent => exact get?_run_none
  case described =>
    intro calls name t i c answer
    obtain ⟨r, found, describes⟩ := (get?_eq_some.mp answer).describes (sound_run sound_empty)
    exact ⟨r.descriptor, (found_run found).1, describes⟩
  case shared =>
    intro before between name t i j c c' first second
    rw [run_append, run_cons, perform, first] at second
    exact (get?_eq_some.mp first).shared_run (sound_run sound_empty) (get?_eq_some.mp second)
  case refused =>
    intro before d after fault refused
    constructor
    · rw [run_append, run_append, run_cons, perform_refused refused]
    · rw [answers_append, answers_append, answers, perform_refused refused,
        List.drop_left' (length_answers _ _)]
  case descriptors =>
    intro calls name
    rw [descriptor?_run]
    simp [descriptor?, find?]
  case names =>
    intro calls
    refine ⟨(sound_run sound_empty).names_increase, fun name => ?_⟩
    rw [mem_names, ne_eq, find?_run_none, ← ne_eq, lastAccepted_ne_none]
  case configured => exact fun ds c => ofDescriptors_ok ds {}
  case misconfigured => exact fun ds fault => ofDescriptors_error ds {}

end Catalog

end Logbook
