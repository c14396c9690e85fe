import Logbook.Proofs.Store.Reach

/-! Committed offsets do not go back by themselves: where nobody goes back and no log is deleted, a
position only moves on, and an offset below the committed one is committed only by a tailer that has
had the partition since before another one committed it. -/
namespace Logbook.Store

def Forward (s : Store) : Action → Prop
  | .delete name => (s.delete name).1 = false
  | .toStart _ | .toLastCommitted _ | .seek _ _ => False
  | _ => True

/-- Another tailer of the group has committed a partition while a tailer had it, which has kept it
since. -/
def Overtaken (r q : TailerRef) (p : Partition) (s : Store) (as : List Action) : Prop :=
  q ≠ r ∧ q.group = r.group ∧ Since (CommitsTo q p) r p s as

instance decidableForward (s : Store) : (a : Action) → Decidable (Forward s a)
  | .delete name => inferInstanceAs (Decidable ((s.delete name).1 = false))
  | .toStart _ | .toLastCommitted _ | .seek _ _ => inferInstanceAs (Decidable False)
  | .create _ _ | .openAppender _ _ _ | .append _ _ _ | .appendTo _ _ _ | .closeAppender _
  | .createTailer _ _ _ _ | .subscribe _ _ _ _ | .takeOver _ | .look _ | .toEnd _ | .commit _
  | .commitPartition _ _ | .closeTailer _ | .setFaults _ _ => inferInstanceAs (Decidable True)

variable {s s' : Store} {a : Action} {as : List Action} {r : TailerRef} {t t' : Tailer}
  {p : Partition} {group : String} {e : Nat}

theorem Forward.neverSeeks (forward : Forward s a) : NeverSeeks s a := by
  cases a with
  | seek => exact forward.elim
  | _ => trivial

theorem Forward.spares (forward : Forward s a) (p : Partition) : ¬Deletes p s a := by
  rintro ⟨rfl, deletes⟩
  cases deletes.symm.trans forward

theorem delete_spares {name : String} (spares : (s.delete name).1 = false) :
    s.act (.delete name) = s := by
  simp only [act]
  unfold delete at spares ⊢
  split at spares
  · cases spares
  · rename_i refused
    rw [if_neg refused]

/-- As long as no log is deleted, no tailer gets past the end of a partition. -/
theorem position_le_reach {config : StoreConfig} (forward : Along Forward ({ config } : Store) as)
    (found : (({ config } : Store).run as).tailer? r = some t) (holds : p ∈ t.assignments) :
    t.position p ≤ (({ config } : Store).run as).reach p := by
  have grounded := grounded_run (along_imp Forward.neverSeeks forward)
  rcases grounded.positions found holds with within | outlives |
      ⟨before, b, after, q, rfl, _, outlives, _⟩
  · exact within
  · exact absurd outlives (Since.excluded forward fun forward => forward.spares p)
  · exact absurd outlives
      (Since.excluded (along_append.mp forward).1 fun forward => forward.spares p)

/-- A tailer moves on in a partition that it keeps. -/
theorem Change.advances (forward : Forward s a) (found : s.tailer? r = some t)
    (change : Change s r t a t') (before : t.position p ≤ s.reach p) (holds : p ∈ t.assignments)
    (keeps : p ∈ t'.assignments) : t.position p ≤ t'.position p := by
  cases change with
  | same | closes => exact Nat.le_refl _
  | turns turn =>
    cases turn with
    | follows => exact Nat.le_of_eq (position_follow_kept holds keeps).symm
    | looks =>
      obtain ⟨n, -, moved⟩ := look_consumes_next found p
      exact moved ▸ Nat.le_add_right _ n
    | ends =>
      rcases position_moveToEnds s t t.assignments p with same | atEnd
      · exact Nat.le_of_eq same.symm
      · exact atEnd ▸ before
    | starts | returns | seeks => exact forward.elim

/-- A tailer is not behind what its group has committed, unless it was overtaken. -/
def Leads (r : TailerRef) (p : Partition) (s : Store) (as : List Action) (k : Nat) : Prop :=
  ((s.run as).committed? r.group p).getD 0 ≤ k ∨ ∃ q, Overtaken r q p s as

theorem Overtaken.later {q : TailerRef} (overtaken : Overtaken r q p s as)
    (holds : Holds r p ((s.run as).act a)) : Overtaken r q p s (as ++ [a]) :=
  ⟨overtaken.1, overtaken.2.1, overtaken.2.2.later holds⟩

/-- A tailer that keeps a partition stays in the lead, unless another one commits. -/
theorem Leads.later (leads : Leads r p s as (t.position p)) (found : (s.run as).tailer? r = some t)
    (member : p ∈ t.assignments) (found' : ((s.run as).act a).tailer? r = some t')
    (holds : p ∈ t'.assignments) (advances : t.position p ≤ t'.position p) :
    Leads r p s (as ++ [a]) (t'.position p) := by
  have had : Holds r p (s.run as) := ⟨t, found, member⟩
  have keeps : Holds r p ((s.run as).act a) := ⟨t', found', holds⟩
  rcases leads with ahead | ⟨q, overtaken⟩
  · rw [Leads, run_concat]
    rcases (effect (s.run as) a).committed r.group p with same | ⟨_, gone⟩ |
        ⟨q, u, ps, here, there, opened, commits, listed, set⟩
    · exact .inl (same ▸ Nat.le_trans ahead advances)
    · exact .inl (gone ▸ Nat.zero_le _)
    · by_cases self : q = r
      · subst self
        cases Option.some.inj (there.symm.trans found)
        exact .inl (set ▸ advances)
      · have now : CommitsTo q p (s.run as) a := ⟨u, ps, there, opened, commits, listed⟩
        exact .inr ⟨q, self, here, .now now had keeps⟩
  · exact .inr ⟨q, overtaken.later keeps⟩

/-- A tailer begins in the lead: where the group has committed. -/
theorem leads_begins (before : ¬Holds r p (s.run as))
    (found' : ((s.run as).act a).tailer? r = some t') (holds : p ∈ t'.assignments) :
    Leads r p s (as ++ [a]) (t'.position p) := by
  have step := effect (s.run as) a
  have begins := step.begins before found' holds
  have same := (step.begins_quietly before found' holds).1
  left
  apply Nat.le_of_eq
  rw [run_concat, same, begins]

def AllLead (s : Store) (as : List Action) : Prop :=
  ∀ r t p, (s.run as).tailer? r = some t → p ∈ t.assignments → Leads r p s as (t.position p)

/-- In a run that goes forward, all tailers lead that were not overtaken. -/
theorem allLead_run {config : StoreConfig} (forward : Along Forward ({ config } : Store) as) :
    AllLead ({ config } : Store) as := by
  refine run_induction ?_ ?_ forward
  · intro r t p found
    cases found
  · intro as a before now leads r t' p found' holds
    rw [run_concat] at found'
    by_cases had : Holds r p (({ config } : Store).run as)
    · obtain ⟨t, found, member⟩ := had
      have change := (effect (({ config } : Store).run as) a).change found found'
      have within := position_le_reach before found member
      have advances := change.advances now found within member holds
      exact (leads r t p found member).later found member found' holds advances
    · exact leads_begins had found' holds

/-- In a run that goes forward, a step takes a committed offset back only if it commits the position
of a tailer that was overtaken. -/
theorem committed_advances {config : StoreConfig} (forward : Along Forward ({ config } : Store) as)
    (now : Forward (({ config } : Store).run as) a)
    (committed : (({ config } : Store).run as).committed? group p = some e) :
    ∃ e', ((({ config } : Store).run as).act a).committed? group p = some e' ∧
      (e ≤ e' ∨ ∃ r q, r.group = group ∧ CommitsTo r p (({ config } : Store).run as) a ∧
        Overtaken r q p ({ config } : Store) as) := by
  rcases (effect (({ config } : Store).run as) a).committed group p with same | ⟨rfl, gone⟩ |
      ⟨r, t, ps, here, found, opened, commits, member, set⟩
  · exact ⟨e, same.trans committed, .inl (Nat.le_refl e)⟩
  · -- the log was not there, so the deletion has left everything as it was
    rw [delete_spares now] at gone
    cases gone.symm.trans committed
  · refine ⟨t.position p, set, ?_⟩
    subst here
    rcases allLead_run forward r t p found (commits_assigned commits member) with ahead | ⟨q, overtaken⟩
    · rw [committed] at ahead
      exact .inl ahead
    · exact .inr ⟨r, q, rfl, ⟨t, ps, found, opened, commits, member⟩, overtaken⟩

end Logbook.Store
