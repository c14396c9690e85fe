import Logbook.Proofs.Store.Handout
import Logbook.Proofs.Store.Ranges

/-! Members of groups are the open tailers that have subscribed, with the names that they asked for.
The range assignment of a group is therefore one of its open tailers. -/
namespace Logbook

theorem Group.members_leave (g : Group) (number : Nat) (sizeOf : String → Option Nat) :
    (g.leave number sizeOf).members = g.members.filter (·.1 ≠ number) := by
  unfold Group.leave
  split
  · rfl
  · rename_i absent
    refine (List.filter_eq_self.mpr fun member joined => ?_).symm
    have other : ¬ member.1 = number := fun same =>
      absent (List.any_eq_true.mpr ⟨member, joined, decide_eq_true same⟩)
    exact decide_eq_true other

theorem TailerRef.eq_iff {r q : TailerRef} :
    r = q ↔ r.group = q.group ∧ r.number = q.number := by
  cases r
  cases q
  exact TailerRef.mk.injEq .. ▸ Iff.rfl

namespace Store

def joins (s : Store) : Action → List (TailerRef × List String)
  | .subscribe group names type codec =>
    match s.subscribe group names type codec with
    | .ok (r, _) => [(r, names)]
    | .error _ => []
  | _ => []

def subscriptions (s : Store) : List Action → List (TailerRef × List String)
  | [] => []
  | a :: as => s.joins a ++ (s.act a).subscriptions as

def membersOf (s : Store) (group : String) : List (Nat × List String) :=
  match s.group? group with
  | some g => g.members
  | none => []

/-- The tailers of a group that have subscribed and are open, with the names that they asked for. -/
def openMembers (s : Store) (joined : List (TailerRef × List String)) (group : String) :
    List (Nat × List String) :=
  (joined.filter fun e => e.1.group = group && !s.isClosedTailer e.1).map fun e =>
    (e.1.number, e.2)

variable {s s' : Store} {a : Action} {r q : TailerRef} {t t' : Tailer} {g : Group}
  {joined : List (TailerRef × List String)} {group : String} {names : List String}

theorem mem_openMembers {number : Nat} : (number, names) ∈ s.openMembers joined group ↔
    (⟨group, number⟩, names) ∈ joined ∧ s.isClosedTailer ⟨group, number⟩ = false := by
  simp only [openMembers, List.mem_map, List.mem_filter, Bool.and_eq_true, decide_eq_true_eq,
    Bool.not_eq_true', Prod.mk.injEq]
  constructor
  · rintro ⟨⟨r, asked⟩, ⟨member, rfl, opened⟩, rfl, rfl⟩
    exact ⟨member, opened⟩
  · rintro ⟨member, opened⟩
    exact ⟨_, ⟨member, rfl, opened⟩, rfl, rfl⟩

theorem openMembers_congr (same : ∀ e ∈ joined, s'.isClosedTailer e.1 = s.isClosedTailer e.1)
    (group : String) : s'.openMembers joined group = s.openMembers joined group := by
  have kept : joined.filter (fun e => e.1.group = group && !s'.isClosedTailer e.1) =
      joined.filter fun e => e.1.group = group && !s.isClosedTailer e.1 :=
    List.filter_congr fun e member => by rw [same e member]
  rw [openMembers, kept, openMembers]

/-! What actions do to members. -/

theorem membersOf_putGroup (s : Store) (name : String) (g : Group) (key : String) :
    (s.putGroup name g).membersOf key = if key = name then g.members else s.membersOf key := by
  simp only [membersOf, group?_putGroup]
  by_cases same : key = name
  · cases members : g.members <;> simp [same, members]
  · simp [same]

theorem membersOf_rebalanceWatchers (s : Store) (name key : String) :
    (s.rebalanceWatchers name).membersOf key = s.membersOf key := by
  simp only [membersOf, group?_rebalanceWatchers]
  cases s.group? key with
  | none => rfl
  | some g =>
    simp only [Option.map_some]
    split <;> rfl

theorem membersOf_leaveGroup (s : Store) (r : TailerRef) (key : String) :
    (s.leaveGroup r).membersOf key =
      if key = r.group then (s.membersOf key).filter (·.1 ≠ r.number) else s.membersOf key := by
  unfold leaveGroup
  split
  · rename_i absent
    split
    · rename_i same
      simp [membersOf, same, absent]
    · rfl
  · rename_i g found
    rw [membersOf_putGroup, Group.members_leave]
    split
    · rename_i same
      simp only [membersOf, same, found]
    · rfl

theorem isClosedTailer_setTailer (found : s.tailer? r = some t) (t' : Tailer) (q : TailerRef) :
    (s.setTailer r t').isClosedTailer q = if q = r then t'.closed else s.isClosedTailer q := by
  simp only [isClosedTailer, tailer?_setTailer]
  by_cases same : q = r
  · simp [same, found]
  · simp [same]

/-- A subscription is refused, or makes a new tailer a member of its group. -/
theorem subscribe_cases (s : Store) (group : String) (names : List String) (type : MessageType)
    (codec : Option Codec) : (∃ e, s.subscribe group names type codec = .error e) ∨
      s.subscribe group names type codec = .ok (s.nextRef group,
        (s.addTailer group { type, codec, subscribed := true }).2.putGroup group
          (((s.group? group).getD {}).join (s.nextRef group).number names s.sizeOf?)) := by
  unfold subscribe
  cases s.config.canSubscribe with
  | false => exact .inl ⟨_, rfl⟩
  | true =>
    cases s.config.limits.checkGroupName group with
    | error e => exact .inl ⟨_, rfl⟩
    | ok _ => exact .inr rfl

/-- An action makes one subscription or none. -/
theorem joins_cases (s : Store) (a : Action) :
    (s.joins a = [] ∧
        (s.act a = s ∨ ∀ group names type codec, a ≠ .subscribe group names type codec)) ∨
      ∃ group names type codec, a = .subscribe group names type codec ∧
        s.joins a = [(s.nextRef group, names)] ∧
        s.act a = (s.addTailer group { type, codec, subscribed := true }).2.putGroup group
          (((s.group? group).getD {}).join (s.nextRef group).number names s.sizeOf?) := by
  cases a with
  | subscribe group names type codec =>
    rcases subscribe_cases s group names type codec with ⟨e, refused⟩ | answer
    · exact .inl ⟨by simp only [joins, refused], .inl (by simp only [act, refused]; rfl)⟩
    · exact .inr ⟨group, names, type, codec, rfl, by simp only [joins, answer],
        by simp only [act, answer]; rfl⟩
  | _ => exact .inl ⟨rfl, .inr fun _ _ _ _ impossible => by cases impossible⟩

/-! Groups without members are dropped. -/

def Inhabited (s : Store) : Prop := ∀ group g, s.group? group = some g → g.members ≠ []

theorem Inhabited.putGroup (inhabited : Inhabited s) (name : String) (g : Group) :
    Inhabited (s.putGroup name g) := by
  intro group h found
  rw [group?_putGroup] at found
  split at found
  · split at found
    · cases found
    · rename_i some
      cases found
      exact fun none => some (List.isEmpty_iff.mpr none)
  · exact inhabited group h found

theorem Inhabited.rebalanceWatchers (inhabited : Inhabited s) (name : String) :
    Inhabited (s.rebalanceWatchers name) := by
  intro group h found
  rw [group?_rebalanceWatchers] at found
  obtain ⟨g, there, rfl⟩ := Option.map_eq_some_iff.mp found
  have members := inhabited group g there
  split
  · exact members
  · exact members

theorem Inhabited.leaveGroup (inhabited : Inhabited s) (r : TailerRef) :
    Inhabited (s.leaveGroup r) := by
  unfold Store.leaveGroup
  split
  · exact inhabited
  · exact inhabited.putGroup r.group _

theorem Inhabited.step (inhabited : Inhabited s) (step : Effect s a s') : Inhabited s' := by
  cases step with
  | @creates name size =>
    have created : Inhabited { s with
        logs := s.logs ++ [Log.mk s.created name (List.replicate size [])]
        created := s.created + 1 } := inhabited
    exact created.rebalanceWatchers name
  | @deletes name =>
    have deleted : Inhabited { s with
        logs := s.logs.filter (·.name ≠ name)
        committed := s.committed.filter (·.1.partition.log ≠ name) } := inhabited
    exact deleted.rebalanceWatchers name
  | subscribes group names type codec =>
    have added : Inhabited (s.addTailer group { type, codec, subscribed := true }).2 := inhabited
    exact added.putGroup group _
  | commits =>
    rw [foldl_commit_eq]
    exact inhabited
  | @leaves r t =>
    have closed : Inhabited (s.setTailer r { t with closed := true }) := inhabited
    exact closed.leaveGroup r
  | keeps | opensAppender | appends | closesAppender | refusesTailer | createsTailer | turns
  | closesTailer | setsFaults => exact inhabited

/-! The invariant. -/

/-- The members of groups are the open ones of the tailers that have subscribed, no group is without
members, and every group has handed out the ranges of its members. -/
structure Coordinated (s : Store) (joined : List (TailerRef × List String)) : Prop where
  numbered : s.Numbered
  once : (joined.map (·.1)).Nodup
  subscribed : ∀ r, r ∈ joined.map (·.1) ↔ ∃ t, s.tailer? r = some t ∧ t.subscribed = true
  members : ∀ group, s.membersOf group = s.openMembers joined group
  inhabited : Inhabited s
  assigned : Assigned s

theorem Effect.subscribed (step : Effect s a s')
    (other : ∀ group names type codec, a ≠ .subscribe group names type codec) (r : TailerRef) :
    (∃ t, s'.tailer? r = some t ∧ t.subscribed = true) ↔
      ∃ t, s.tailer? r = some t ∧ t.subscribed = true := by
  cases found : s.tailer? r with
  | some t =>
    obtain ⟨t', found', change⟩ := step.tailer found
    simp [found', change.kept.1.2.2]
  | none =>
    rcases step.newTailer found with absent | ⟨ps, type, codec, _, _, new⟩ | ⟨_, _, _, rfl, _⟩
    · simp [absent]
    · rw [Store.newTailer, Tailer.place_eq] at new
      simp [new]
    · exact absurd rfl (other _ _ _ _)

theorem Coordinated.leaves (coordinated : Coordinated s joined) (found : s.tailer? r = some t)
    (group : String) : ((s.setTailer r { t with closed := true }).leaveGroup r).membersOf group =
      ((s.setTailer r { t with closed := true }).leaveGroup r).openMembers joined group := by
  have before : (s.setTailer r { t with closed := true }).membersOf group =
      s.openMembers joined group := coordinated.members group
  have closed (q : TailerRef) :
      ((s.setTailer r { t with closed := true }).leaveGroup r).isClosedTailer q =
        if q = r then true else s.isClosedTailer q := by
    rw [leaveGroup_eq]
    exact isClosedTailer_setTailer found _ q
  rw [membersOf_leaveGroup, before]
  simp only [openMembers, closed]
  by_cases here : group = r.group
  · subst here
    rw [if_pos rfl, List.filter_map, List.filter_filter]
    congr 1
    apply List.filter_congr
    intro e _
    -- within the group, the tailer that leaves is known by its number
    by_cases inside : e.1.group = r.group <;> by_cases number : e.1.number = r.number <;>
      simp [inside, number, TailerRef.eq_iff]
  · rw [if_neg here]
    congr 1
    apply List.filter_congr
    intro e _
    by_cases inside : e.1.group = group
    · have other : e.1 ≠ r := fun same => here (inside.symm.trans (same ▸ rfl))
      simp [other]
    · simp [inside]

theorem Coordinated.members_step (coordinated : Coordinated s joined) (step : Effect s a s')
    (other : ∀ group names type codec, a ≠ .subscribe group names type codec) (group : String) :
    s'.membersOf group = s'.openMembers joined group := by
  have before := coordinated.members group
  cases step with
  | creates => exact (membersOf_rebalanceWatchers _ _ _).trans before
  | deletes => exact (membersOf_rebalanceWatchers _ _ _).trans before
  | subscribes => exact absurd rfl (other _ _ _ _)
  | createsTailer =>
    refine before.trans (openMembers_congr (fun e member => ?_) group).symm
    obtain ⟨t, found, _⟩ := (coordinated.subscribed e.1).mp (List.mem_map_of_mem member)
    simp only [isClosedTailer, tailer?_addTailer, found, Option.some_or]
  | turns found turn =>
    refine before.trans (openMembers_congr (fun e _ => ?_) group).symm
    rw [isClosedTailer_setTailer found]
    split
    · rename_i same
      simp only [same, isClosedTailer, found, turn.kept.2.1]
      rfl
    · rfl
  | commits =>
    rw [foldl_commit_eq]
    exact before
  | @closesTailer r t found _ explicit =>
    refine before.trans (openMembers_congr (fun e member => ?_) group).symm
    have closed := isClosedTailer_setTailer found { t with closed := true } e.1
    refine closed.trans (if_neg ?_)
    -- a tailer for given partitions is none of those that have subscribed
    intro same
    obtain ⟨u, there, follows⟩ := (coordinated.subscribed e.1).mp (List.mem_map_of_mem member)
    rw [same, found] at there
    cases there
    cases explicit.symm.trans follows
  | leaves found => exact coordinated.leaves found group
  | keeps | opensAppender | appends | closesAppender | refusesTailer | setsFaults => exact before

theorem Coordinated.subscribes (coordinated : Coordinated s joined) (type : MessageType)
    (codec : Option Codec) (acts : s.act a =
      (s.addTailer group { type, codec, subscribed := true }).2.putGroup group
        (((s.group? group).getD {}).join (s.nextRef group).number names s.sizeOf?)) :
    Coordinated (s.act a) (joined ++ [(s.nextRef group, names)]) := by
  have step := effect s a
  have absent := coordinated.numbered.nextRef group
  have tailers (r : TailerRef) : (s.act a).tailer? r = (s.tailer? r).or
      (if r = s.nextRef group then some { type, codec, subscribed := true } else none) := by
    rw [acts]
    exact tailer?_addTailer s group _ r
  have kept {r : TailerRef} {t : Tailer} (found : s.tailer? r = some t) :
      (s.act a).tailer? r = some t := by
    rw [tailers, found]
    rfl
  have fresh : s.nextRef group ∉ joined.map (·.1) := by
    intro member
    obtain ⟨t, found, _⟩ := (coordinated.subscribed _).mp member
    cases absent.symm.trans found
  constructor
  case numbered => exact coordinated.numbered.step step
  case assigned => exact coordinated.assigned.step step
  case inhabited => exact coordinated.inhabited.step step
  case once =>
    rw [List.map_append, List.nodup_append]
    refine ⟨coordinated.once, List.nodup_singleton _, ?_⟩
    rintro r old q new rfl
    cases List.mem_singleton.mp new
    exact fresh old
  case subscribed =>
    intro r
    rw [List.map_append, List.mem_append, coordinated.subscribed r, tailers]
    by_cases new : r = s.nextRef group
    · subst new
      simp [absent]
    · simp [new]
  case members =>
    intro key
    have older : (s.act a).openMembers joined key = s.openMembers joined key := by
      refine openMembers_congr (fun e member => ?_) key
      obtain ⟨t, found, _⟩ := (coordinated.subscribed e.1).mp (List.mem_map_of_mem member)
      simp only [isClosedTailer, kept found, found]
    have opened : (s.act a).isClosedTailer (s.nextRef group) = false := by
      simp [isClosedTailer, tailers, absent]
    have grown : (s.act a).openMembers (joined ++ [(s.nextRef group, names)]) key =
        s.openMembers joined key ++
          if key = group then [((s.nextRef group).number, names)] else [] := by
      have place : (s.nextRef group).group = group := rfl
      rw [← older]
      simp only [openMembers, List.filter_append, List.map_append]
      by_cases same : key = group
      · simp [opened, place, same]
      · simp [place, same, Ne.symm same]
    have before : (s.addTailer group { type, codec, subscribed := true }).2.membersOf key =
        s.openMembers joined key := coordinated.members key
    rw [grown, acts, membersOf_putGroup, before]
    by_cases same : key = group
    · subst same
      rw [if_pos rfl, if_pos rfl, ← coordinated.members key, membersOf]
      cases s.group? key <;> rfl
    · rw [if_neg same, if_neg same, List.append_nil]

theorem Coordinated.step (coordinated : Coordinated s joined) (a : Action) :
    Coordinated (s.act a) (joined ++ s.joins a) := by
  have step := effect s a
  rcases joins_cases s a with ⟨none, other⟩ | ⟨group, names, type, codec, rfl, one, acts⟩
  · rw [none, List.append_nil]
    rcases other with same | other
    · rw [same]
      exact coordinated
    · constructor
      case numbered => exact coordinated.numbered.step step
      case once => exact coordinated.once
      case subscribed =>
        intro r
        exact (coordinated.subscribed r).trans (step.subscribed other r).symm
      case members => exact coordinated.members_step step other
      case inhabited => exact coordinated.inhabited.step step
      case assigned => exact coordinated.assigned.step step
  · rw [one]
    exact coordinated.subscribes type codec acts

theorem Coordinated.run (coordinated : Coordinated s joined) (as : List Action) :
    Coordinated (s.run as) (joined ++ s.subscriptions as) := by
  induction as generalizing s joined with
  | nil => simpa [subscriptions] using coordinated
  | cons a as ih =>
    simpa only [run_cons, subscriptions, List.append_assoc] using ih (coordinated.step a)

theorem coordinated_run (config : StoreConfig) (as : List Action) :
    Coordinated (({ config } : Store).run as) (({ config } : Store).subscriptions as) := by
  have start : Coordinated ({ config } : Store) [] := by
    constructor
    case numbered => exact fun _ member => by cases member
    case once => exact List.nodup_nil
    case subscribed => exact fun r => by simp [tailer?]
    case members => exact fun _ => rfl
    case inhabited => exact fun _ _ found => by cases found
    case assigned => exact fun _ _ found => by cases found
  exact start.run as

/-! What the invariant says of the members of one group. -/

theorem nodup_openMembers (once : (joined.map (·.1)).Nodup) (group : String) :
    ((s.openMembers joined group).map (·.1)).Nodup := by
  have numbers : (s.openMembers joined group).map (·.1) =
      ((joined.filter fun e => e.1.group = group && !s.isClosedTailer e.1).map (·.1)).map
        TailerRef.number := by
    simp only [openMembers, List.map_map]
    rfl
  rw [numbers]
  refine List.Nodup.map_on ?_ (once.sublist (List.filter_sublist.map _))
  intro r there q also same
  obtain ⟨e, member, rfl⟩ := List.mem_map.mp there
  obtain ⟨f, member', rfl⟩ := List.mem_map.mp also
  simp only [List.mem_filter, Bool.and_eq_true, decide_eq_true_eq] at member member'
  exact TailerRef.eq_iff.mpr ⟨member.2.1.trans member'.2.1.symm, same⟩

theorem Coordinated.once_members (coordinated : Coordinated s joined)
    (found : s.group? group = some g) : (g.members.map (·.1)).Nodup := by
  have members := coordinated.members group
  simp only [membersOf, found] at members
  rw [members]
  exact nodup_openMembers coordinated.once group

theorem Coordinated.mem_members (coordinated : Coordinated s joined)
    (found : s.group? group = some g) {number : Nat} : (number, names) ∈ g.members ↔
      (⟨group, number⟩, names) ∈ joined ∧ s.isClosedTailer ⟨group, number⟩ = false := by
  have members := coordinated.members group
  simp only [membersOf, found] at members
  rw [members]
  exact mem_openMembers

/-- An open tailer that has subscribed is a member of its group. -/
theorem Coordinated.member (coordinated : Coordinated s joined) (asked : (r, names) ∈ joined)
    (opened : s.isClosedTailer r = false) :
    ∃ g, s.group? r.group = some g ∧ (r.number, names) ∈ g.members := by
  have member : (r.number, names) ∈ s.openMembers joined r.group :=
    mem_openMembers.mpr ⟨asked, opened⟩
  rw [← coordinated.members r.group, membersOf] at member
  cases found : s.group? r.group with
  | none => simp [found] at member
  | some g => exact ⟨g, rfl, by simpa [found] using member⟩

theorem Coordinated.openMember (coordinated : Coordinated s joined) (found : s.tailer? r = some t)
    (subscribed : t.subscribed = true) (opened : t.closed = false) :
    ∃ g names, s.group? r.group = some g ∧ (r.number, names) ∈ g.members := by
  obtain ⟨e, asked, rfl⟩ :=
    List.mem_map.mp ((coordinated.subscribed r).mpr ⟨t, found, subscribed⟩)
  have unclosed : s.isClosedTailer e.1 = false := (isClosedTailer_eq found).trans opened
  obtain ⟨g, there, member⟩ := coordinated.member asked unclosed
  exact ⟨g, e.2, there, member⟩

theorem Coordinated.mem_assignmentOf (coordinated : Coordinated s joined)
    (given : p ∈ (s.assignmentOf r).2) : ∃ g, s.group? r.group = some g ∧ p ∈ g.assigned r.number ∧
      g.assignment = Group.assignRanges g.members s.sizeOf? := by
  unfold assignmentOf at given
  cases found : s.group? r.group with
  | none => simp [found] at given
  | some g => exact ⟨g, rfl, by simpa [found] using given, coordinated.assigned r.group g found⟩

/-- Groups have settled: they are there as long as they have open members, their members are the
open tailers that have subscribed, and what they have handed out are the ranges of these over the
logs that there are. So every partition that somebody subscribes to has one owner. -/
structure Settled (s : Store) (joined : List (TailerRef × List String)) : Prop where
  once : (joined.map (·.1)).Nodup
  subscribed : ∀ r, (∃ names, (r, names) ∈ joined) ↔
    ∃ t, s.tailer? r = some t ∧ t.subscribed = true
  present : ∀ group, (s.group? group).isSome = true ↔
    ∃ r t, r.group = group ∧ s.tailer? r = some t ∧ t.subscribed = true ∧ t.closed = false
  members : ∀ group g, s.group? group = some g → g.members = s.openMembers joined group
  ranges : ∀ group g, s.group? group = some g →
    g.assignment = Group.assignRanges g.members s.sizeOf?
  owned : ∀ r names p l, (r, names) ∈ joined → s.isClosedTailer r = false → p.log ∈ names →
    s.log? p.log = some l → p.index < l.size →
    ∃ q, q.group = r.group ∧ p ∈ (s.assignmentOf q).2 ∧
      ∀ q', q'.group = r.group → p ∈ (s.assignmentOf q').2 → q' = q
  owners : ∀ r p, p ∈ (s.assignmentOf r).2 → s.isClosedTailer r = false ∧
    (∃ names, (r, names) ∈ joined ∧ p.log ∈ names) ∧
    ∃ l, s.log? p.log = some l ∧ p.index < l.size

theorem Coordinated.present (coordinated : Coordinated s joined) (group : String) :
    (s.group? group).isSome = true ↔
      ∃ r t, r.group = group ∧ s.tailer? r = some t ∧ t.subscribed = true ∧ t.closed = false := by
  constructor
  · intro present
    obtain ⟨g, found⟩ := Option.isSome_iff_exists.mp present
    obtain ⟨⟨number, names⟩, member⟩ :=
      List.exists_mem_of_ne_nil _ (coordinated.inhabited group g found)
    obtain ⟨asked, opened⟩ := (coordinated.mem_members found).mp member
    obtain ⟨t, there, subscribed⟩ :=
      (coordinated.subscribed ⟨group, number⟩).mp (List.mem_map_of_mem asked)
    exact ⟨⟨group, number⟩, t, rfl, there, subscribed, (isClosedTailer_eq there).symm.trans opened⟩
  · rintro ⟨r, t, rfl, there, subscribed, opened⟩
    obtain ⟨g, _, found, _⟩ := coordinated.openMember there subscribed opened
    rw [found]
    rfl

theorem Coordinated.owned (coordinated : Coordinated s joined) {l : Log}
    (asked : (r, names) ∈ joined) (opened : s.isClosedTailer r = false) (wants : p.log ∈ names)
    (log : s.log? p.log = some l) (within : p.index < l.size) :
    ∃ q, q.group = r.group ∧ p ∈ (s.assignmentOf q).2 ∧
      ∀ q', q'.group = r.group → p ∈ (s.assignmentOf q').2 → q' = q := by
  obtain ⟨g, found, member⟩ := coordinated.member asked opened
  have known : s.sizeOf? p.log = some l.size := by rw [sizeOf?, log, Option.map_some]
  obtain ⟨owner, _, given, sole⟩ := Group.assigned_once (coordinated.once_members found)
    (coordinated.assigned r.group g found) member wants known within
  refine ⟨⟨r.group, owner.1⟩, rfl, ?_, fun q' same given' => ?_⟩
  · simpa only [assignmentOf, found] using given
  · obtain ⟨g', found', also, _⟩ := coordinated.mem_assignmentOf given'
    rw [same, found] at found'
    cases found'
    exact TailerRef.eq_iff.mpr ⟨same, sole q'.number also⟩

theorem Coordinated.owners (coordinated : Coordinated s joined)
    (given : p ∈ (s.assignmentOf r).2) : s.isClosedTailer r = false ∧
      (∃ names, (r, names) ∈ joined ∧ p.log ∈ names) ∧
      ∃ l, s.log? p.log = some l ∧ p.index < l.size := by
  obtain ⟨g, found, assigned, ranges⟩ := coordinated.mem_assignmentOf given
  obtain ⟨names, member, wants, size, known, within⟩ :=
    Group.assigned_exists (coordinated.once_members found) ranges assigned
  obtain ⟨asked, opened⟩ := (coordinated.mem_members found).mp member
  obtain ⟨l, log, rfl⟩ := Option.map_eq_some_iff.mp known
  exact ⟨opened, ⟨names, asked, wants⟩, l, log, within⟩

theorem Coordinated.settled (coordinated : Coordinated s joined) : Settled s joined where
  once := coordinated.once
  subscribed r := by
    rw [← coordinated.subscribed r, List.mem_map]
    constructor
    · rintro ⟨names, asked⟩
      exact ⟨(r, names), asked, rfl⟩
    · rintro ⟨⟨_, names⟩, asked, rfl⟩
      exact ⟨names, asked⟩
  present := coordinated.present
  members group g found := by
    rw [← coordinated.members group]
    simp only [membersOf, found]
  ranges := coordinated.assigned
  owned _ _ _ _ := coordinated.owned
  owners _ _ := coordinated.owners

end Store

end Logbook
