import Logbook.Toml.Value

/-!
Building the tables of a document line by line. A header opens a table, a pair goes to the table
opened last, and every table and key is defined at most once.
-/
namespace Logbook.Toml

/-- Why a text is no document. Keys in conflict are told with their place: the path of the table
they stand in, where it has a path, or the steps up to the value that is no table. -/
inductive Fault where
  | malformed
  | duplicateKey (key : String) (table : Option (List String))
  | definedTable (path : List String)
  | notTable (path : List String) (kind : String)
  | tooDeep
deriving DecidableEq, Repr

/-- What a path belongs to: a header, the dotted key of a pair in the table at some path, or the
dotted key of a pair between braces. -/
inductive Walk where
  | header
  | pair (table : List String)
  | braces
deriving DecidableEq, Repr

namespace Walk

/-- The table that a conflict of keys names. -/
def table? : Walk → Option (List String)
  | pair table => some table
  | header | braces => none

/-- How the tables come to be that are missing on the way. -/
def origin : Walk → Origin
  | header => .path
  | pair _ | braces => .dotted

/-- Whether the path goes on through a table, the last of some steps. Nothing is added to a table
between braces, and a dotted key adds nothing to a table with a header. -/
def enter (w : Walk) (steps : List String) (origin : Origin) : Except Fault Unit :=
  let duplicate : Fault := .duplicateKey (steps.getLastD "") none
  match w, origin with
  | _, .path | _, .dotted | header, .header => .ok ()
  | _, .header | braces, .inline => .error duplicate
  | _, .inline => .error (.notTable steps (Value.kind (.table .inline [])))

end Walk

namespace Entries

/-- Puts a value in the place of the one under the same key, or at the end. -/
def put (key : String) (v : Value) : Entries → Entries
  | [] => [(key, v)]
  | e :: rest => if e.1 = key then (key, v) :: rest else e :: put key v rest

def erase (key : String) (es : Entries) : Entries := es.filter (·.1 ≠ key)

/-- A change to the entries of a table, which may depend on the table's origin. -/
abbrev Edit := Origin → Entries → Except Fault Entries

/-- Changes the table at the end of a path, after some steps. Steps that are missing are made; of an
array of tables the last element is entered. -/
def edit (w : Walk) (change : Edit) (steps : List String) : List String → Edit
  | [], origin, es => change origin es
  | key :: path, _, es =>
    let steps := steps ++ [key]
    match es.lookup key with
    | none => do
      return put key (.table w.origin (← edit w change steps path w.origin [])) es
    | some (.table origin inner) => do
      w.enter steps origin
      return put key (.table origin (← edit w change steps path origin inner)) es
    | some (.tables elements) =>
      match elements.getLast? with
      | none => throw (.notTable steps (Value.kind (.tables elements)))
      | some last => do
        let last ← edit w change steps path .header last
        return put key (.tables (elements.dropLast ++ [last])) es
    | some v => throw (.notTable steps v.kind)

/-- Adds a pair under a dotted key, its steps and its last part. A table made by a dotted key takes
only pairs with dotted keys, any other table only pairs without steps. -/
def addPair (w : Walk) (path : List String) (key : String) (v : Value) : Edit :=
  edit w (fun origin es =>
    if origin = .dotted ↔ path = [] then throw (.duplicateKey key none)
    else if (es.lookup key).isSome then throw (.duplicateKey key w.table?)
    else return es ++ [(key, v)]) [] path

/-- Opens a table under the last part of a header's path. It may have been a step on the way to
another header. -/
def openTable (path : List String) : Edit := fun _ es =>
  let key := path.getLastD ""
  match es.lookup key with
  | none => .ok (es ++ [(key, .table .header [])])
  | some (.table .path inner) => .ok (erase key es ++ [(key, .table .header inner)])
  | some _ => .error (.definedTable path)

/-- Opens one more element of an array of tables. -/
def openElement (path : List String) : Edit := fun _ es =>
  let key := path.getLastD ""
  match es.lookup key with
  | none => .ok (es ++ [(key, .tables [[]])])
  | some (.tables elements) => .ok (put key (.tables (elements ++ [[]])) es)
  | some _ => .error (.definedTable path)

end Entries

/-- A document while it is read: its entries so far, and the path of the table opened last. -/
structure Draft where
  root : Entries := []
  opened : List String := []

namespace Draft

/-- Opens a table or an element at a path, which is never empty. -/
def openAt (d : Draft) (path : List String) (step : List String → Entries.Edit) :
    Except Fault Draft := do
  let root ← Entries.edit .header (step path) [] path.dropLast .header d.root
  return { root, opened := path }

def openTable (d : Draft) (path : List String) : Except Fault Draft :=
  d.openAt path Entries.openTable

def openElement (d : Draft) (path : List String) : Except Fault Draft :=
  d.openAt path Entries.openElement

/-- Adds a pair to the table opened last. -/
def addPair (d : Draft) (path : List String) (v : Value) : Except Fault Draft := do
  let pair := Entries.addPair (.pair d.opened) path.dropLast (path.getLastD "") v
  return { d with root := ← Entries.edit .header pair [] d.opened .header d.root }

end Draft

end Logbook.Toml
