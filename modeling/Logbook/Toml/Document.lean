import Logbook.Toml.Scalar

/-!
Documents: lines with headers and pairs. Arrays and tables between braces nest at most 79 deep,
so the depth that is left bounds the reading of values; a document ends with its last line.
-/
namespace Logbook.Toml

/-- The deepest nesting of values, and the most parts of a dotted key. -/
def depthLimit : Nat := 79

/-- The rest after a comment, at the end of its line; a comment holds no control characters. -/
def skipComment : List Char → List Char
  | '#' :: rest => rest.dropWhile (!isControl ·)
  | cs => cs

/-- The parts of a dotted key, of which each but the first follows a point. -/
def readKeyParts : Nat → Reader (List String)
  | 0, _ => .error .tooDeep
  | n + 1, cs => do
    let (part, rest) ← readKeyPart (skipBlanks cs)
    match skipBlanks rest with
    | '.' :: rest =>
      let (parts, rest) ← readKeyParts n rest
      return (part :: parts, rest)
    | rest => return ([part], rest)

def readKey : Reader (List String) := readKeyParts depthLimit

theorem length_skipComment (cs : List Char) : (skipComment cs).length ≤ cs.length := by
  unfold skipComment
  split
  · rename_i rest
    have := (List.dropWhile_sublist (l := rest) (!isControl ·)).length_le
    simp only [List.length_cons]
    omega
  · exact Nat.le_refl _

/-- Passes over blanks, line breaks and comments between the items of an array. -/
def skipItemSpace (cs : List Char) : List Char :=
  match afterBreak? (skipComment (skipBlanks cs)) with
  | some ⟨below, _⟩ => skipItemSpace below
  | none => skipBlanks cs
termination_by cs.length
decreasing_by
  have := length_skipComment (skipBlanks cs)
  have := length_skipBlanks cs
  omega

/-- The items of an array up to its bracket; a comma may follow the last one. -/
def readItems (value : Reader Value) : Nat → Reader (List Value)
  | 0, _ => .error .malformed
  | fuel + 1, cs => do
    match skipItemSpace cs with
    | ']' :: rest => return ([], rest)
    | cs =>
      let (v, rest) ← value cs
      match skipItemSpace rest with
      | ',' :: rest =>
        let (vs, rest) ← readItems value fuel rest
        return (v :: vs, rest)
      | ']' :: rest => return ([v], rest)
      | _ => throw .malformed

/-- A key, an equals sign and a value. -/
def readPair (value : Reader Value) : Reader (List String × Value) := fun cs => do
  let (key, rest) ← readKey cs
  let rest ← readMark '=' rest
  let (v, rest) ← value (skipBlanks rest)
  return ((key, v), rest)

/-- Whether a key starts here; a basic string that does not end counts as one. -/
def startsKey (cs : List Char) : Bool :=
  match skipBlanks cs with
  | '"' :: _ => true
  | '\'' :: rest => (readLiteral rest).isOk
  | c :: _ => isBareKeyChar c
  | [] => false

/-- The pairs of a table between braces, on one line, up to where no comma with a key follows. -/
def readPairs (value : Reader Value) : Nat → Reader (List (List String × Value))
  | 0, _ => .error .malformed
  | fuel + 1, cs => do
    let (pair, rest) ← readPair value cs
    match skipBlanks rest with
    | ',' :: below =>
      if startsKey below then
        let (pairs, rest) ← readPairs value fuel below
        return (pair :: pairs, rest)
      else return ([pair], ',' :: below)
    | rest => return ([pair], rest)

/-- The table that pairs between braces make. -/
def inlineTable (pairs : List (List String × Value)) : Except Fault Value := do
  let add (es : Entries) (pair : List String × Value) : Except Fault Entries :=
    Entries.addPair .braces pair.1.dropLast (pair.1.getLastD "") pair.2 .inline es
  return .table .inline (← pairs.foldlM add [])

/-- A value that nests at most `depth` deep. A conflict of keys between braces is told before a
brace is missed; it is not told of a table that is itself an item of an array. -/
def readValue : Bool → Nat → Reader Value
  | _, _, '"' :: rest => (readString ('"' :: rest)).map fun (s, rest) => (.text s, rest)
  | _, _, '\'' :: rest => (readString ('\'' :: rest)).map fun (s, rest) => (.text s, rest)
  | _, 0, '[' :: _ => .error .tooDeep
  | _, 0, '\x7b' :: _ => .error .tooDeep
  | _, depth + 1, '[' :: rest =>
    (readItems (readValue true depth) (rest.length + 1) rest).map fun (vs, rest) =>
      (.array vs, rest)
  | isItem, depth + 1, '\x7b' :: rest =>
    match skipBlanks rest with
    | '\x7d' :: rest => .ok (.table .inline [], rest)
    | _ => do
      let (pairs, rest) ← readPairs (readValue false depth) (rest.length + 1) rest
      let table ← (inlineTable pairs).mapError fun f => if isItem then .malformed else f
      return (table, ← readMark '\x7d' rest)
  | _, _, cs => readScalar cs

/-- The end of a line, with blanks and a comment before it, or the end of the document. -/
def endLine (cs : List Char) : Except Fault (List Char) :=
  match skipComment (skipBlanks cs) with
  | [] => .ok []
  | rest =>
    match afterBreak? rest with
    | some below => .ok below
    | none => .error .malformed

/-- A header, which names a table or, between double brackets, an element of an array. The line is
read to its end before the table is opened. -/
def readHeader (d : Draft) (cs : List Char) : Except Fault (Draft × List Char) :=
  match cs with
  | '[' :: rest => do
    let (path, rest) ← readKey rest
    match rest with
    | ']' :: ']' :: rest =>
      let below ← endLine rest
      return (← d.openElement path, below)
    | _ => throw .malformed
  | cs => do
    let (path, rest) ← readKey cs
    match rest with
    | ']' :: rest =>
      let below ← endLine rest
      return (← d.openTable path, below)
    | _ => throw .malformed

/-- One line: nothing, a header, or a pair, whose value may go on below. -/
def readLine (d : Draft) (cs : List Char) : Except Fault (Draft × List Char) :=
  match skipBlanks cs with
  | '[' :: rest => readHeader d rest
  | '#' :: rest => (endLine ('#' :: rest)).map (d, ·)
  | [] => .ok (d, [])
  | cs =>
    match afterBreak? cs with
    | some below => .ok (d, below)
    | none => do
      let ((path, v), rest) ← readPair (readValue false depthLimit) cs
      let rest ← endLine rest
      return (← d.addPair path v, rest)

/-- Every line takes at least one character. -/
def readLines : Nat → Draft → List Char → Except Fault Draft
  | _, d, [] => .ok d
  | 0, _, _ => .error .malformed
  | fuel + 1, d, cs => do
    let (d, rest) ← readLine d cs
    readLines fuel d rest

/-- The entries of a document. A byte order mark may stand in front of it. -/
def readDocument (s : String) : Except Fault Entries :=
  let cs := match s.toList with
    | '\ufeff' :: rest => rest
    | cs => cs
  (readLines (cs.length + 1) {} cs).map (·.root)

/-- The message for a key that is there already, in a table if its path is known. -/
def duplicateMessage (key : String) (table : Option (List String)) : String :=
  let place := match table with
    | none => ""
    | some [] => " in document root"
    | some path => " in table `" ++ ".".intercalate path ++ "`"
  "duplicate key `" ++ key ++ "`" ++ place

/-- How a conflict of keys is told. A header shows its last part as it would be written, all other
parts of keys are shown as they are. -/
def Fault.conflict? : Fault → Option String
  | duplicateKey key table => some (duplicateMessage key table)
  | definedTable path =>
    some (duplicateMessage (String.ofList (writeKey (path.getLastD "").toList)) path.dropLast)
  | notTable path kind =>
    some ("dotted key `" ++ ".".intercalate path ++ "` attempted to extend non-table type (" ++
      kind ++ ")")
  | malformed | tooDeep => none

end Logbook.Toml
