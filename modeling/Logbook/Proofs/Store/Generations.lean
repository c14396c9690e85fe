import Logbook.Proofs.Store.Members
import Logbook.Proofs.Store.Reading

/-! Generations: a tailer that has seen the generation of its group has the partitions that the
group has handed out to it. A group that was dropped and begins again counts from zero, but by then
it has no open tailer that remembers the old count. -/
namespace Logbook

namespace Group

def GoesOn (g h : Group) : Prop := h = g ∨ g.generation < h.generation

theorem goesOn_rebalance (g : Group) (sizeOf : String → Option Nat) :
    g.GoesOn (g.rebalance sizeOf) := .inr (Nat.lt_succ_self g.generation)

theorem goesOn_join (g : Group) (number : Nat) (names : List String)
    (sizeOf : String → Option Nat) : g.GoesOn (g.join number names sizeOf) :=
  .inr (Nat.lt_succ_self g.generation)

theorem goesOn_leave (g : Group) (number : Nat) (sizeOf : String → Option Nat) :
    g.GoesOn (g.leave number sizeOf) := by
  unfold leave
  split
  · exact .inr (Nat.lt_succ_self g.generation)
  · exact .inl rfl

end Group

namespace Store

variable {s s' : Store} {a : Action} {r q : TailerRef} {t t' u : Tailer} {g : Group}
  {joined : List (TailerRef × List String)} {name : String}

theorem group?_join (s : Store) (g : Group) (number : Nat) (names : List String)
    (sizeOf : String → Option Nat) (name : String) :
    (s.putGroup name (g.join number names sizeOf)).group? name =
      some (g.join number names sizeOf) := by
  have members : (g.join number names sizeOf).members = g.members ++ [(number, names)] := rfl
  rw [group?_putGroup, if_pos rfl, members]
  simp

theorem goesOn_rebalanceWatchers (s : Store) (log : String) (found : s.group? name = some g) :
    ∃ h, (s.rebalanceWatchers log).group? name = some h ∧ g.GoesOn h := by
  rw [group?_rebalanceWatchers, found, Option.map_some]
  refine ⟨_, rfl, ?_⟩
  split
  · exact g.goesOn_rebalance s.sizeOf?
  · exact .inl rfl

/-- A group that somebody leaves goes on, unless that was its last member. -/
theorem goesOn_leaveGroup (r : TailerRef) (found : s.group? name = some g) :
    (∃ h, (s.leaveGroup r).group? name = some h ∧ g.GoesOn h) ∨
      r.group = name ∧ ∀ member ∈ g.members, member.1 = r.number := by
  unfold leaveGroup
  by_cases here : name = r.group
  · subst here
    simp only [found, true_and]
    by_cases last : ∀ member ∈ g.members, member.1 = r.number
    · exact .inr last
    · have remains : (g.leave r.number s.sizeOf?).members.isEmpty = false := by
        rw [Group.members_leave, List.isEmpty_eq_false_iff_exists_mem]
        push Not at last
        obtain ⟨member, joined, other⟩ := last
        exact ⟨member, List.mem_filter.mpr ⟨joined, decide_eq_true other⟩⟩
      refine .inl ⟨_, ?_, g.goesOn_leave r.number s.sizeOf?⟩
      rw [group?_putGroup, if_pos rfl, remains]
      rfl
  · refine .inl ⟨g, ?_, .inl rfl⟩
    split
    · exact found
    · rw [group?_putGroup, if_neg here, found]

/-- Every action lets a group go on, unless it closes the last member. -/
theorem Effect.group (step : Effect s a s') (found : s.group? name = some g) :
    (∃ h, s'.group? name = some h ∧ g.GoesOn h) ∨
      ∃ q, q.group = name ∧ s'.isClosedTailer q = true ∧
        ∀ member ∈ g.members, member.1 = q.number := by
  have same {s' : Store} (groups : s'.groups = s.groups) :
      ∃ h, s'.group? name = some h ∧ g.GoesOn h :=
    ⟨g, (congrArg (List.lookup name) groups).trans found, .inl rfl⟩
  cases step with
  | creates => exact .inl (goesOn_rebalanceWatchers _ _ found)
  | deletes => exact .inl (goesOn_rebalanceWatchers _ _ found)
  | subscribes group names type codec =>
    left
    by_cases here : name = group
    · subst here
      rw [found]
      exact ⟨_, group?_join _ _ _ _ _ _, g.goesOn_join _ _ _⟩
    · rw [group?_putGroup, if_neg here]
      exact same rfl
  | commits =>
    rw [foldl_commit_eq]
    exact .inl (same rfl)
  | @leaves q t there =>
    have found' : (s.setTailer q { t with closed := true }).group? name = some g := found
    rcases goesOn_leaveGroup q found' with on | ⟨here, last⟩
    · exact .inl on
    · refine .inr ⟨q, here, ?_, last⟩
      rw [leaveGroup_eq]
      exact (isClosedTailer_setTailer there _ q).trans (if_pos rfl)
  | keeps | opensAppender | appends | closesAppender | refusesTailer | createsTailer | turns
  | closesTailer | setsFaults => exact .inl (same rfl)

/-- The group of a new member has a generation that the member has not seen. -/
theorem Effect.joinedGroup {names : List String} {type : MessageType} {codec : Option Codec}
    (step : Effect s (.subscribe r.group names type codec) s') (absent : s.tailer? r = none)
    (found' : s'.tailer? r = some t') : ∃ g, s'.group? r.group = some g ∧ 0 < g.generation := by
  cases step with
  | subscribes => exact ⟨_, group?_join _ _ _ _ _ _, Nat.succ_pos _⟩
  | keeps => cases absent.symm.trans found'
  | appends _ _ _ appended => cases appended
  | turns _ turn => cases turn
  | commits _ _ commits => cases commits

/-- A tailer has seen no generation that its group has yet to reach, and if it has seen the present
one then it has what the group has handed out to it. -/
structure Follows (r : TailerRef) (t : Tailer) (g : Group) : Prop where
  behind : t.generation ≤ g.generation
  current : t.generation = g.generation → t.assignments = g.assigned r.number

theorem Follows.goesOn (follows : Follows r t g) {h : Group} (on : g.GoesOn h) : Follows r t h := by
  rcases on with rfl | later
  · exact follows
  · have behind : t.generation < h.generation := Nat.lt_of_le_of_lt follows.behind later
    exact ⟨Nat.le_of_lt behind, fun same => absurd same (Nat.ne_of_lt behind)⟩

/-- Every open tailer that has subscribed follows its group, which is there. -/
def Followed (s : Store) : Prop :=
  ∀ r t, s.tailer? r = some t → t.subscribed = true → t.closed = false →
    ∃ g, s.group? r.group = some g ∧ Follows r t g

/-- A tailer that takes over has seen the generation of its group. -/
theorem follow_follows (found : s.group? r.group = some g) (subscribed : t.subscribed = true)
    (follows : Follows r t g) : (s.follow r t).1.generation = g.generation ∧
      (s.follow r t).1.assignments = g.assigned r.number := by
  have handed : s.assignmentOf r = (g.generation, g.assigned r.number) := by
    simp only [assignmentOf, found]
  by_cases current : t.generation = g.generation
  · have still : (s.follow r t).1 = t := by
      simp only [follow, subscribed, if_true, handed]
      exact Tailer.follow_current t _ _ _ current
    rw [still]
    exact ⟨current, follows.current current⟩
  · simp only [follow, subscribed, if_true, handed]
    rw [Tailer.follow_moved t _ _ _ current]
    exact ⟨rfl, rfl⟩

/-- Whatever a tailer does, it goes on to follow its group, and forgets no generation. -/
theorem Follows.change (follows : Follows r t g) (found : s.group? r.group = some g)
    (subscribed : t.subscribed = true) (change : Change s r t a t') :
    Follows r t' g ∧ t.generation ≤ t'.generation := by
  cases change with
  | same => exact ⟨follows, Nat.le_refl _⟩
  | closes => exact ⟨⟨follows.behind, follows.current⟩, Nat.le_refl _⟩
  | turns turn =>
    rcases turn.kept.2.2 with ⟨generation, assignments⟩ | ⟨-, -, rfl⟩
    · refine ⟨⟨?_, ?_⟩, ?_⟩
      · exact generation ▸ follows.behind
      · rw [generation, assignments]
        exact follows.current
      · exact Nat.le_of_eq generation.symm
    · obtain ⟨generation, assignments⟩ := follow_follows found subscribed follows
      refine ⟨⟨Nat.le_of_eq generation, fun _ => assignments⟩, ?_⟩
      rw [generation]
      exact follows.behind

theorem Followed.step (followed : Followed s) (coordinated : Coordinated s joined)
    (step : Effect s a s') : Followed s' := by
  intro r t' found' subscribed' opened'
  cases found : s.tailer? r with
  | none =>
    rcases step.newTailer found with absent | ⟨ps, type, codec, _, _, new⟩ | ⟨_, _, _, rfl, new⟩
    · cases absent.symm.trans found'
    · cases Option.some.inj (new.symm.trans found')
      rw [newTailer, Tailer.place_eq] at subscribed'
      cases subscribed'
    · cases Option.some.inj (new.symm.trans found')
      obtain ⟨g, there, started⟩ := step.joinedGroup found found'
      exact ⟨g, there, Nat.zero_le _, fun same => absurd same (Nat.ne_of_lt started)⟩
  | some t =>
    have change := step.change found found'
    have subscribed : t.subscribed = true := change.kept.1.2.2 ▸ subscribed'
    have opened : t.closed = false := change.continues.opened opened'
    obtain ⟨g, there, follows⟩ := followed r t found subscribed opened
    have after := (follows.change there subscribed change).1
    rcases step.group there with ⟨h, there', on⟩ | ⟨q, here, shut, last⟩
    · exact ⟨h, there', after.goesOn on⟩
    · -- the tailer itself would be the last member, but it is open
      obtain ⟨g', names, there', member⟩ := coordinated.openMember found subscribed opened
      cases Option.some.inj (there.symm.trans there')
      obtain rfl : q = r := TailerRef.eq_iff.mpr ⟨here, (last _ member).symm⟩
      rw [isClosedTailer_eq found', opened'] at shut
      cases shut

theorem followed_run (as : List Action) (followed : Followed s)
    (coordinated : Coordinated s joined) : Followed (s.run as) := by
  induction as generalizing s joined with
  | nil => exact followed
  | cons a as ih =>
    exact ih (followed.step coordinated (effect s a)) (coordinated.step a)

theorem followed_start (config : StoreConfig) (as : List Action) :
    Followed (({ config } : Store).run as) :=
  followed_run as (fun _ _ found => by cases found) (coordinated_run config [])

/-- As long as a tailer is open, it forgets no generation. -/
theorem generation_run (as : List Action) (followed : Followed s)
    (coordinated : Coordinated s joined) (found : s.tailer? r = some t)
    (subscribed : t.subscribed = true) (found' : (s.run as).tailer? r = some t')
    (opened' : t'.closed = false) : t.generation ≤ t'.generation := by
  induction as generalizing s joined t with
  | nil =>
    cases Option.some.inj (found.symm.trans found')
    exact Nat.le_refl _
  | cons a as ih =>
    have step := effect s a
    obtain ⟨u, there, change⟩ := step.tailer found
    obtain ⟨v, final, later⟩ := run_tailer there as
    cases Option.some.inj (final.symm.trans found')
    have opened : t.closed = false := change.continues.opened (later.opened opened')
    obtain ⟨g, here, follows⟩ := followed r t found subscribed opened
    refine Nat.le_trans (follows.change here subscribed change).2 ?_
    exact ih (followed.step coordinated step) (coordinated.step a) there
      (change.kept.1.2.2.trans subscribed) found'

theorem Followed.assignmentOf (followed : Followed s) (found : s.tailer? r = some t)
    (subscribed : t.subscribed = true) (opened : t.closed = false) :
    t.generation ≤ (s.assignmentOf r).1 ∧
      (t.generation = (s.assignmentOf r).1 → t.assignments = (s.assignmentOf r).2) := by
  obtain ⟨g, there, behind, current⟩ := followed r t found subscribed opened
  simp only [Store.assignmentOf, there]
  exact ⟨behind, current⟩

/-- A tailer that takes over has what its group has handed out to it. -/
theorem Followed.takesOver (followed : Followed s) (found : s.tailer? r = some t)
    (subscribed : t.subscribed = true) (opened : t.closed = false) :
    ∃ t', (s.act (.takeOver r)).tailer? r = some t' ∧ t'.subscribed = true ∧ t'.closed = false ∧
      t'.generation = (s.assignmentOf r).1 ∧ t'.assignments = (s.assignmentOf r).2 := by
  obtain ⟨g, there, follows⟩ := followed r t found subscribed opened
  obtain ⟨generation, assignments⟩ := follow_follows there subscribed follows
  have taken : s.act (.takeOver r) = s.setTailer r (s.follow r t).1 := by
    rw [act, takeOver_ok (openTailer_ok.mpr ⟨found, opened⟩)]
    rfl
  have kept := (Turn.follows (s := s) (r := r) opened).kept
  refine ⟨(s.follow r t).1, ?_, kept.1.2.2.trans subscribed, kept.2.1.trans opened, ?_, ?_⟩
  · rw [taken]
    exact found_setTailer found _
  · simp only [Store.assignmentOf, there, generation]
  · simp only [Store.assignmentOf, there, assignments]

/-- After a takeover, a tailer has what its group has handed out to it for as long as the group
stays in that generation. -/
theorem takeOver_lasts {as : List Action} (followed : Followed s)
    (coordinated : Coordinated s joined) (found : s.tailer? r = some t)
    (subscribed : t.subscribed = true) (opened : t.closed = false)
    (found' : ((s.act (.takeOver r)).run as).tailer? r = some t') (opened' : t'.closed = false)
    (lasts : (((s.act (.takeOver r)).run as).assignmentOf r).1 = (s.assignmentOf r).1) :
    t'.assignments = (((s.act (.takeOver r)).run as).assignmentOf r).2 := by
  obtain ⟨u, now, subscribed₁, -, generation, -⟩ := followed.takesOver found subscribed opened
  have subscribed' : t'.subscribed = true := by
    obtain ⟨v, final, later⟩ := run_tailer now as
    cases Option.some.inj (final.symm.trans found')
    exact later.subscribed.trans subscribed₁
  have followed₁ := followed.step coordinated (effect s (.takeOver r))
  have coordinated₁ := coordinated.step (.takeOver r)
  have forgets := generation_run as followed₁ coordinated₁ now subscribed₁ found' opened'
  have final := followed_run as followed₁ coordinated₁
  obtain ⟨behind, current⟩ := final.assignmentOf found' subscribed' opened'
  refine current (Nat.le_antisymm behind ?_)
  calc (((s.act (.takeOver r)).run as).assignmentOf r).1
    _ = (s.assignmentOf r).1 := lasts
    _ = u.generation := generation.symm
    _ ≤ t'.generation := forgets

/-- What generations tell. A tailer with the generation of its group has what the group has handed
out to it. It has that from the first part of a read on, as long as the generation lasts. Tailers of
one group that have its generation have no partition in common. -/
structure GenerationsTell (s : Store) : Prop where
  current : ∀ r t, s.tailer? r = some t → t.subscribed = true → t.closed = false →
    t.generation = (s.assignmentOf r).1 → t.assignments = (s.assignmentOf r).2
  lasting : ∀ r t as t', s.tailer? r = some t → t.subscribed = true → t.closed = false →
    ((s.act (.takeOver r)).run as).tailer? r = some t' → t'.closed = false →
    (((s.act (.takeOver r)).run as).assignmentOf r).1 = (s.assignmentOf r).1 →
    t'.assignments = (((s.act (.takeOver r)).run as).assignmentOf r).2
  reads : ∀ r t as t', s.tailer? r = some t → t.subscribed = true → t.closed = false →
    ((s.read r).2.2.run as).tailer? r = some t' → t'.closed = false →
    (((s.read r).2.2.run as).assignmentOf r).1 = (s.assignmentOf r).1 →
    t'.assignments = (((s.read r).2.2.run as).assignmentOf r).2
  apart : ∀ r q t u, r ≠ q → r.group = q.group →
    s.tailer? r = some t → t.subscribed = true → t.closed = false →
    t.generation = (s.assignmentOf r).1 →
    s.tailer? q = some u → u.subscribed = true → u.closed = false →
    u.generation = (s.assignmentOf q).1 → ∀ p ∈ t.assignments, p ∉ u.assignments

theorem Coordinated.apart (coordinated : Coordinated s joined) (other : r ≠ q)
    (same : r.group = q.group) (given : p ∈ (s.assignmentOf r).2) : p ∉ (s.assignmentOf q).2 := by
  intro again
  obtain ⟨g, found, assigned, ranges⟩ := coordinated.mem_assignmentOf given
  obtain ⟨h, found', assigned', _⟩ := coordinated.mem_assignmentOf again
  rw [← same, found] at found'
  cases found'
  have number := Group.assigned_apart (coordinated.once_members found) ranges assigned assigned'
  exact other (TailerRef.eq_iff.mpr ⟨same, number⟩)

/-- In every state of a store, generations tell whether a tailer is up to date. -/
theorem generations_tell (config : StoreConfig) (as : List Action) :
    GenerationsTell (({ config } : Store).run as) := by
  have coordinated := coordinated_run config as
  have followed := followed_start config as
  generalize ({ config } : Store).run as = s at coordinated followed
  constructor
  case current =>
    exact fun r t found subscribed opened => (followed.assignmentOf found subscribed opened).2
  case lasting =>
    exact fun r t as t' => takeOver_lasts followed coordinated
  case reads =>
    intro r t as t' found subscribed opened
    have read : (s.read r).2.2.run as = (s.act (.takeOver r)).run (.look r :: as) := by
      rw [read_run (openTailer_ok.mpr ⟨found, opened⟩)]
      rfl
    rw [read]
    exact takeOver_lasts followed coordinated found subscribed opened
  case apart =>
    intro r q t u other same found subscribed opened current found' subscribed' opened' current'
      p holds
    rw [(followed.assignmentOf found subscribed opened).2 current] at holds
    rw [(followed.assignmentOf found' subscribed' opened').2 current']
    exact coordinated.apart other same holds

end Store

end Logbook
