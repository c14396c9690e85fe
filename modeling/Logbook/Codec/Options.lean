/-!
Options: texts under keys, each key once. The entries are kept in the order of their keys, so
equal sets of options are equal values, whatever order they were added in.
-/
namespace Logbook

/-- Entries with keys in increasing order. -/
abbrev InKeyOrder (entries : List (String × String)) : Prop :=
  entries.Pairwise fun a b => a.1 < b.1

structure Options where
  entries : List (String × String)
  inKeyOrder : InKeyOrder entries
deriving DecidableEq

namespace Options

def empty : Options := ⟨[], .nil⟩

def get? (o : Options) (key : String) : Option String := o.entries.lookup key

/-- Puts an entry at the place of its key; an entry that was under the key before gives way. -/
def insertEntry (key value : String) : List (String × String) → List (String × String)
  | [] => [(key, value)]
  | e :: rest =>
    if key < e.1 then (key, value) :: e :: rest
    else if e.1 < key then e :: insertEntry key value rest
    else (key, value) :: rest

theorem mem_insertEntry {key value : String} {entries : List (String × String)}
    {e : String × String} (h : e ∈ insertEntry key value entries) :
    e = (key, value) ∨ e ∈ entries := by
  induction entries with
  | nil => simpa [insertEntry] using h
  | cons d rest ih =>
    grind [insertEntry]

theorem inKeyOrder_insertEntry (key value : String) {entries : List (String × String)}
    (h : InKeyOrder entries) : InKeyOrder (insertEntry key value entries) := by
  induction entries with
  | nil => simp [insertEntry]
  | cons e rest ih =>
    obtain ⟨he, hrest⟩ := List.pairwise_cons.1 h
    unfold insertEntry
    split
    · rename_i hlt
      refine List.pairwise_cons.2 ⟨fun a ha => ?_, h⟩
      rcases List.mem_cons.1 ha with rfl | ha
      · exact hlt
      · exact String.lt_trans hlt (he a ha)
    · split
      · rename_i hgt
        refine List.pairwise_cons.2 ⟨fun a ha => ?_, ih hrest⟩
        rcases mem_insertEntry ha with rfl | ha
        · exact hgt
        · exact he a ha
      · rename_i h₁ h₂
        have heq : key = e.1 := String.le_antisymm (String.not_lt.1 h₂) (String.not_lt.1 h₁)
        exact List.pairwise_cons.2 ⟨fun a ha => by simpa [heq] using he a ha, hrest⟩

def insert (o : Options) (key value : String) : Options :=
  ⟨insertEntry key value o.entries, inKeyOrder_insertEntry key value o.inKeyOrder⟩

/-- Options from entries in any order; of two entries under one key the later stays. -/
def ofList (entries : List (String × String)) : Options :=
  entries.foldl (fun o e => o.insert e.1 e.2) empty

end Options

end Logbook
