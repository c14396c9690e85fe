import Logbook.Proofs.Toml.Quoted
import Logbook.Toml.Document

/-! Documents of TOML, line by line: what a written pair adds, and to which table. -/
namespace Logbook.Toml

variable {d d' : Draft} {cs rest : List Char} {es last inner root : Entries}

/-! Lines. -/

def Draft.Reads (d : Draft) (cs : List Char) (root : Entries) : Prop :=
  ∀ fuel, cs.length < fuel → (readLines fuel d cs).map (·.root) = .ok root

theorem Draft.reads_nil (d : Draft) : d.Reads [] d.root := fun fuel _ => by
  rw [readLines]
  rfl

theorem Draft.Reads.line {front : List Char} (line : readLine d (front ++ rest) = .ok (d', rest))
    (filled : front ≠ []) (below : d'.Reads rest root) : d.Reads (front ++ rest) root := by
  intro fuel enough
  cases front with
  | nil => exact absurd rfl filled
  | cons c front =>
    rw [List.cons_append, List.length_cons, List.length_append] at enough
    cases fuel with
    | zero => cases enough
    | succ fuel =>
      rw [List.cons_append] at line ⊢
      rw [readLines, line]
      · exact below fuel (by omega)
      · exact List.cons_ne_nil c _

/-- A document is read as its lines if it starts with no byte order mark. -/
theorem readDocument_reads (unmarked : cs.head? ≠ some '\ufeff') (reads : Draft.Reads {} cs root) :
    readDocument (String.ofList cs) = .ok root := by
  rw [readDocument, String.toList_ofList]
  cases cs with
  | nil => exact reads _ (Nat.lt_succ_self _)
  | cons c cs =>
    split
    case h_1 same => exact absurd (congrArg some (List.cons.inj same).1) unmarked
    case h_2 => exact reads _ (Nat.lt_succ_self _)

def isKeyStart (c : Char) : Bool := isQuote c || isBareKeyChar c

theorem head_writeKey (cs : List Char) :
    ∃ c more, writeKey cs = c :: more ∧ isKeyStart c = true := by
  rw [writeKey]
  split
  case isTrue bare =>
    rw [Bool.and_eq_true, List.all_eq_true] at bare
    cases cs with
    | nil => simp at bare
    | cons c cs => exact ⟨c, cs, rfl, by simp [isKeyStart, bare.2 c List.mem_cons_self]⟩
  split
  · exact ⟨_, _, rfl, rfl⟩
  split
  · exact ⟨_, _, rfl, rfl⟩
  · exact ⟨_, _, rfl, rfl⟩

theorem head_writeString (cs : List Char) :
    ∃ q more, writeString cs = q :: more ∧ (q = '"' ∨ q = '\'') := by
  rw [writeString]
  repeat' split
  · exact ⟨_, _, rfl, .inl rfl⟩
  · exact ⟨_, _, rfl, .inr rfl⟩
  · exact ⟨_, _, rfl, .inl rfl⟩
  · exact ⟨_, _, rfl, .inr rfl⟩
  · exact ⟨_, _, rfl, .inl rfl⟩
  · exact ⟨_, _, rfl, .inl rfl⟩

theorem ne_of_isKeyStart {c d : Char} (start : isKeyStart c = true) (other : isKeyStart d = false) :
    c ≠ d := by
  rintro rfl
  exact Bool.eq_false_iff.mp other start

theorem skipBlanks_writeKey (key rest : List Char) :
    skipBlanks (writeKey key ++ rest) = writeKey key ++ rest := by
  obtain ⟨c, more, same, start⟩ := head_writeKey key
  have solid : isBlank c = false := by
    simp [isBlank, ne_of_isKeyStart (d := ' ') start rfl, ne_of_isKeyStart (d := '\t') start rfl]
  rw [same, List.cons_append, skipBlanks_solid solid]

theorem readKey_writeKey (key rest : List Char) :
    readKey (writeKey key ++ " = ".toList ++ rest) =
      .ok ([String.ofList key], '=' :: ' ' :: rest) := by
  have part : readKeyPart (writeKey key ++ (" = ".toList ++ rest)) =
      .ok (String.ofList key, " = ".toList ++ rest) :=
    readKeyPart_writeKey (by simp [isBareKeyChar, Char.isAlphanum]) key
  rw [readKey, depthLimit, readKeyParts, List.append_assoc, skipBlanks_writeKey, part]
  rfl

theorem readValue_writeString (apart : ∀ q ∈ rest.head?, isQuote q = false) (cs : List Char)
    (isItem : Bool) (depth : Nat) :
    readValue isItem depth (writeString cs ++ rest) = .ok (.text (String.ofList cs), rest) := by
  have read := readString_writeString apart cs
  obtain ⟨q, more, same, rfl | rfl⟩ := head_writeString cs
  · rw [same, List.cons_append] at read ⊢
    rw [readValue, read]
    rfl
  · rw [same, List.cons_append] at read ⊢
    rw [readValue, read]
    rfl

theorem skipBlanks_writeString (text rest : List Char) :
    skipBlanks (' ' :: (writeString text ++ rest)) = writeString text ++ rest := by
  obtain ⟨q, more, same, quote⟩ := head_writeString text
  have solid : isBlank q = false := by
    rcases quote with rfl | rfl
    · rfl
    · rfl
  rw [same, List.cons_append]
  exact skipBlanks_solid solid _

theorem readPair_written (apart : ∀ q ∈ rest.head?, isQuote q = false) (key text : List Char)
    (isItem : Bool) (depth : Nat) :
    readPair (readValue isItem depth)
        (writeKey key ++ " = ".toList ++ (writeString text ++ rest)) =
      .ok (([String.ofList key], .text (String.ofList text)), rest) := by
  rw [readPair, readKey_writeKey]
  simp only [bind, Except.bind, readMark, if_true, skipBlanks_writeString,
    readValue_writeString apart text isItem depth]
  rfl

/-- A line with a pair adds it to the table opened last. -/
theorem readLine_pair (d : Draft) (key text rest : List Char) :
    readLine d (writeKey key ++ " = ".toList ++ (writeString text ++ '\n' :: rest)) =
      (d.addPair [String.ofList key] (.text (String.ofList text))).map (·, rest) := by
  obtain ⟨c, more, same, start⟩ := head_writeKey key
  have apart : ∀ q ∈ ('\n' :: rest).head?, isQuote q = false := by simp [isQuote]
  have pair := readPair_written apart key text false depthLimit
  have ended : endLine ('\n' :: rest) = .ok rest := rfl
  rw [readLine.eq_def, List.append_assoc, skipBlanks_writeKey, ← List.append_assoc]
  rw [same, List.cons_append, List.cons_append] at pair ⊢
  -- what a key starts with begins neither a header nor a comment, and no line ends there
  split
  case h_1 header => exact absurd (List.cons.inj header).1 (ne_of_isKeyStart start rfl)
  case h_2 comment => exact absurd (List.cons.inj comment).1 (ne_of_isKeyStart start rfl)
  case h_3 none => cases none
  case h_4 =>
    have inLine : ∀ cs, afterBreak? (c :: cs) = none := by
      intro cs
      rw [afterBreak?]
      · rintro below broken
        exact ne_of_isKeyStart start rfl (List.cons.inj broken).1
      · rintro below broken
        exact ne_of_isKeyStart start rfl (List.cons.inj broken).1
    simp only [inLine, pair, bind, Except.bind, ended]
    cases d.addPair [String.ofList key] (.text (String.ofList text)) with
    | error fault => rfl
    | ok d => rfl

/-! Tables. -/

namespace Entries

variable {w : Walk} {change : Edit} {steps path : List String} {table key : String}
  {elements : List Entries} {origin : Origin}

def arrayOf (table : String) (elements : List Entries) : Entries :=
  if elements.isEmpty then [] else [(table, .tables elements)]

theorem arrayOf_append (table : String) (elements : List Entries) (last : Entries) :
    arrayOf table (elements ++ [last]) = [(table, .tables (elements ++ [last]))] := by
  simp [arrayOf]

theorem edit_here : edit w change steps [] origin es = change origin es := rfl

/-- A path that starts with an array of tables goes on in its last element. -/
theorem edit_arrayOf : edit w change steps (table :: path) origin
      (arrayOf table (elements ++ [last])) =
    (edit w change (steps ++ [table]) path .header last).map fun last =>
      arrayOf table (elements ++ [last]) := by
  simp only [arrayOf_append, edit, List.lookup_cons_self, List.getLast?_concat,
    List.dropLast_concat, put, if_true]
  cases edit w change (steps ++ [table]) path .header last with
  | error fault => rfl
  | ok last => rfl

theorem put_append (fresh : es.lookup key = none) (u v : Value) :
    put key v (es ++ [(key, u)]) = es ++ [(key, v)] := by
  induction es with
  | nil => simp [put]
  | cons e es ih =>
    obtain ⟨name, value⟩ := e
    rw [List.lookup_cons] at fresh
    split at fresh
    · cases fresh
    case h_2 other =>
      have apart : name ≠ key := fun same => by simp [same] at other
      rw [List.cons_append, put, if_neg apart, ih fresh, List.cons_append]

/-- A header's path goes on through a table with a header. -/
theorem edit_table (fresh : es.lookup table = none) :
    edit .header change steps (table :: path) origin (es ++ [(table, .table .header inner)]) =
      (edit .header change (steps ++ [table]) path .header inner).map fun inner =>
        es ++ [(table, .table .header inner)] := by
  have found : List.lookup table (es ++ [(table, Value.table .header inner)]) =
      some (.table .header inner) := by
    simp [List.lookup_append, fresh]
  rw [edit, found]
  simp only [Walk.enter, put_append fresh]
  cases edit .header change (steps ++ [table]) path .header inner with
  | error fault => rfl
  | ok inner => rfl

/-- A pair is added at the end of a table with a header that has no such key. -/
theorem addPair_fresh (fresh : es.lookup key = none) (v : Value) :
    addPair w [] key v .header es = .ok (es ++ [(key, v)]) := by
  rw [addPair, edit, if_neg (by decide), fresh]
  rfl

end Entries

namespace Draft

open Entries

variable {table key : String} {elements : List Entries}

theorem openElement_arrayOf (table : String) (elements : List Entries) (opened : List String) :
    openElement ⟨arrayOf table elements, opened⟩ [table] =
      .ok ⟨arrayOf table (elements ++ [[]]), [table]⟩ := by
  rw [arrayOf_append]
  cases elements with
  | nil => rfl
  | cons first rest =>
    simp only [openElement, openAt, List.dropLast, edit, Entries.openElement, arrayOf, List.getLastD,
      List.isEmpty_cons, Bool.false_eq_true, if_false, List.getLast, List.lookup_cons_self, put, if_true]
    rfl

/-- A pair for the last element of an array of tables. -/
theorem addPair_element (fresh : last.lookup key = none) (v : Value) :
    addPair ⟨arrayOf table (elements ++ [last]), [table]⟩ [key] v =
      .ok ⟨arrayOf table (elements ++ [last ++ [(key, v)]]), [table]⟩ := by
  have added : Entries.addPair (.pair [table]) [] key v .header last = .ok (last ++ [(key, v)]) :=
    addPair_fresh fresh v
  simp only [addPair, edit_arrayOf, edit_here, List.dropLast, List.getLastD, List.getLast, added]
  rfl

/-- A table of the last element of an array of tables. -/
theorem openTable_element {sub : String} (fresh : last.lookup sub = none) (opened : List String) :
    openTable ⟨arrayOf table (elements ++ [last]), opened⟩ [table, sub] =
      .ok ⟨arrayOf table (elements ++ [last ++ [(sub, .table .header [])]]), [table, sub]⟩ := by
  simp only [openTable, openAt, List.dropLast, edit_arrayOf, edit_here, Entries.openTable,
    List.getLastD, List.getLast, fresh]
  rfl

/-- A pair for the table that was opened in the last element. -/
theorem addPair_table {sub : String} (own : es.lookup sub = none) (fresh : inner.lookup key = none)
    (v : Value) :
    addPair ⟨arrayOf table (elements ++ [es ++ [(sub, .table .header inner)]]), [table, sub]⟩ [key] v =
      .ok ⟨arrayOf table (elements ++ [es ++ [(sub, .table .header (inner ++ [(key, v)]))]]),
        [table, sub]⟩ := by
  have added : Entries.addPair (.pair [table, sub]) [] key v .header inner =
      .ok (inner ++ [(key, v)]) := addPair_fresh fresh v
  simp only [addPair, edit_arrayOf, edit_table own, edit_here, List.dropLast, List.getLastD,
    List.getLast, added]
  rfl

end Draft

end Logbook.Toml
