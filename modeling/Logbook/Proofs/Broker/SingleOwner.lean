import Logbook.Proofs.Broker.Soundness

/-! Single ownership: in every session, a partition of a group belongs to at most one open tailer, and
it is refused exactly as long as it belongs to one or a creation of one is in progress. -/
namespace Logbook.Broker.Session

/-- Exact single ownership. No two open tailers share a key. A creation is refused for the first key
that an open tailer or another creation has, and for no other reason than such a key; what the store
answers is never taken for a refusal. A tailer has the keys that its creation asked for. -/
structure SingleOwner (x : Session) : Prop where
  disjoint : ∀ r ∈ x.explicit, ∀ q ∈ x.explicit, r ≠ q →
    x.broker.store.isClosedTailer r = false → x.broker.store.isClosedTailer q = false →
    ∀ key ∈ x.broker.store.keysOf r, key ∉ x.broker.store.keysOf q
  refuses : ∀ group partitions type codec, x.broker.checkRequest group partitions = .ok () →
    ∀ key, (x.broker.beginTailer group partitions type codec).1 = .error (.alreadyAssigned key) ↔
      ∃ before p after, partitions = before ++ p :: after ∧ key = ⟨group, p⟩ ∧
        x.holders.Has key ∧ ∀ q ∈ before, ¬x.holders.Has ⟨group, q⟩
  finishes : ∀ k answer key, .created k answer ∈ x.calls →
    (x.broker.finishTailer k answer).1 ≠ .error (.alreadyAssigned key)
  asked : ∀ k r, .created k (.ok r) ∈ x.calls → x.broker.store.keysOf r = k.keys

variable {x : Session}

/-- The first key that the ownership on record refuses is the first one that someone has. -/
theorem Sound.taken? (sound : Sound x) (opened : x.broker.closed = false) (group : String)
    (partitions : List Partition) (key : GroupPartition) :
    (x.broker.ownership.prune x.broker.store.isClosedTailer).taken? x.broker.store.isClosedTailer
        (partitions.map (⟨group, ·⟩)) = some key ↔
      ∃ before p after, partitions = before ++ p :: after ∧ key = ⟨group, p⟩ ∧
        x.holders.Has key ∧ ∀ q ∈ before, ¬x.holders.Has ⟨group, q⟩ := by
  have taken (q : Partition) := (sound.agrees opened).prune.active ⟨group, q⟩
  rw [Ownership.taken?, List.find?_map, Option.map_eq_some_iff]
  constructor
  · rintro ⟨p, first, rfl⟩
    obtain ⟨held, before, after, split, free⟩ := List.find?_eq_some_iff_append.mp first
    refine ⟨before, p, after, split, rfl, (taken p).mp held, fun q member has => ?_⟩
    have unheld := free q member
    simp only [Function.comp_apply, Bool.not_eq_true'] at unheld
    cases unheld.symm.trans ((taken q).mpr has)
  · rintro ⟨before, p, after, split, rfl, held, free⟩
    have unheld (q : Partition) (member : q ∈ before) := mt (taken q).mp (free q member)
    refine ⟨p, List.find?_eq_some_iff_append.mpr ⟨(taken p).mpr held, before, after, split,
      fun q member => ?_⟩, rfl⟩
    simp only [Function.comp_apply, Bool.not_eq_true']
    exact Bool.eq_false_iff.mpr (unheld q member)

theorem Sound.finishes (sound : Sound x) {k : Ticket} {answer : Outcome TailerRef}
    {key : GroupPartition} (member : .created k answer ∈ x.calls) :
    (x.broker.finishTailer k answer).1 ≠ .error (.alreadyAssigned key) := by
  cases answer with
  | error e =>
    simp only [Broker.finishTailer, ne_eq, Except.error.injEq]
    rintro rfl
    exact sound.refused k key member
  | ok r =>
    simp only [Broker.finishTailer]
    split
    · simp [Broker.discard]
    · simp

theorem single_owner (config : StoreConfig) (limits : Limits) (ops : List Operation) :
    SingleOwner ((start config limits).run ops) := by
  have sound := sound_run config limits ops
  generalize (start config limits).run ops = x at sound
  exact {
    disjoint := fun r handed q other apart opened also => by
      cases closed : x.broker.closed with
      | false => exact (sound.agrees closed).disjoint handed other apart opened also
      | true => cases opened.symm.trans (sound.closed closed r handed)
    refuses := fun group partitions type codec checked key => by
      rw [beginTailer_alreadyAssigned checked]
      exact sound.taken? (checkRequest_open checked) group partitions key
    finishes := fun k answer key member => sound.finishes member
    asked := fun k r member => (sound.created k r member).keys }

end Logbook.Broker.Session
