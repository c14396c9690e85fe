import Mathlib.Data.List.Forall2
import Logbook.Codec.Configuration
import Logbook.Proofs.Lookup
import Logbook.Proofs.Success
import Logbook.Proofs.Toml.Document

/-! Configurations are read back from their documents, whatever their texts contain and in whatever
order their options are written. -/
namespace Logbook

variable {key value : String} {entries : List (String × String)}

/-! Options from entries in any order. -/

namespace Options

theorem perm_insertEntry (fresh : key ∉ entries.map (·.1)) (value : String) :
    (insertEntry key value entries).Perm ((key, value) :: entries) := by
  induction entries with
  | nil => exact .refl _
  | cons e entries ih =>
    rw [List.map_cons, List.mem_cons, not_or] at fresh
    rw [insertEntry]
    split
    · exact .refl _
    case isFalse notBefore =>
      split
      · exact ((ih fresh.2).cons e).trans (.swap _ _ _)
      case isFalse notAfter =>
        exact absurd (String.le_antisymm (String.not_lt.mp notAfter) (String.not_lt.mp notBefore))
          fresh.1

theorem perm_foldl_insert (o : Options) (distinct : (entries.map (·.1)).Nodup)
    (fresh : ∀ key ∈ entries.map (·.1), key ∉ o.entries.map (·.1)) :
    (entries.foldl (fun o e => o.insert e.1 e.2) o).entries.Perm (entries ++ o.entries) := by
  induction entries generalizing o with
  | nil => exact .refl _
  | cons e entries ih =>
    rw [List.map_cons, List.nodup_cons] at distinct
    rw [List.map_cons, List.forall_mem_cons] at fresh
    have added : (o.insert e.1 e.2).entries.Perm (e :: o.entries) :=
      perm_insertEntry fresh.1 e.2
    have others : ∀ key ∈ entries.map (·.1), key ∉ (o.insert e.1 e.2).entries.map (·.1) := by
      intro key member again
      rw [(added.map _).mem_iff, List.map_cons, List.mem_cons] at again
      rcases again with rfl | again
      · exact distinct.1 member
      · exact fresh.2 key member again
    rw [List.foldl_cons]
    exact (ih _ distinct.2 others).trans ((added.append_left entries).trans List.perm_middle)

theorem nodup_keys (o : Options) : (o.entries.map (·.1)).Nodup := by
  rw [List.nodup_iff_pairwise_ne, List.pairwise_map]
  exact o.inKeyOrder.imp fun before => String.ne_of_lt before

/-- Options are the same in whatever order their entries come. -/
theorem ofList_perm {o : Options} (perm : entries.Perm o.entries) : ofList entries = o := by
  have distinct : (entries.map (·.1)).Nodup := (perm.map _).nodup_iff.mpr o.nodup_keys
  have same : (ofList entries).entries.Perm o.entries := by
    have added := perm_foldl_insert empty distinct fun key _ => List.not_mem_nil
    rw [empty, List.append_nil] at added
    exact added.trans perm
  have ordered : (ofList entries).entries = o.entries := same.eq_of_pairwise
    (fun a b _ _ before after => absurd after (String.lt_asymm before))
    (ofList entries).inKeyOrder o.inKeyOrder
  generalize ofList entries = found at ordered
  cases found
  cases ordered
  rfl

end Options

namespace Configuration

open Toml (Draft Entries Value)

/-! Lines of a section. -/

theorem readLine_pair (d : Draft) (key value : String) (rest : List Char) :
    Toml.readLine d (writePair key value ++ rest) =
      (d.addPair [key] (.text value)).map (·, rest) := by
  have line := Toml.readLine_pair d key.toList value.toList rest
  rw [String.ofList_toList, String.ofList_toList] at line
  rw [← line, writePair]
  simp only [List.append_assoc, List.singleton_append]

theorem readLine_blank (d : Draft) (rest : List Char) :
    Toml.readLine d (['\n'] ++ rest) = .ok (d, rest) := rfl

def optionTable (options : List (String × String)) : Entries :=
  options.map fun e => (e.1, .text e.2)

def Section.table (s : Section) : Entries :=
  [("name", .text s.name), ("implementation", .text s.implementation),
    ("options", .table .header (optionTable s.options))]

variable {d d' : Draft} {done : List Entries} {rest : List Char} {root es : Entries}
  {options : List (String × String)}

theorem lookup_optionTable (fresh : key ∉ options.map (·.1)) :
    (optionTable options).lookup key = none := by
  rw [List.lookup_eq_none_iff]
  intro e member
  obtain ⟨option, among, rfl⟩ := List.mem_map.mp member
  rw [bne_iff_ne]
  rintro rfl
  exact fresh (List.mem_map_of_mem among)

/-- A pair in the table opened last. -/
theorem reads_pair (added : d.addPair [key] (.text value) = .ok d') (below : d'.Reads rest root) :
    d.Reads (writePair key value ++ rest) root := by
  refine .line ?_ (by simp [writePair]) below
  rw [readLine_pair, added]
  rfl

/-- The header of one more element. -/
theorem reads_header (opened : List String)
    (below : Draft.Reads ⟨.arrayOf "codec" (done ++ [[]]), ["codec"]⟩ rest root) :
    Draft.Reads ⟨.arrayOf "codec" done, opened⟩ ("[[codec]]\n".toList ++ rest) root := by
  have line : ∀ d, Toml.readLine d ("[[codec]]\n".toList ++ rest) =
      (d.openElement ["codec"]).map (·, rest) := fun d => rfl
  refine .line ?_ (by simp) below
  rw [line, Draft.openElement_arrayOf]
  rfl

/-- The header of the options of the last element. -/
theorem reads_optionsHeader {opened : List String} (fresh : es.lookup "options" = none)
    (below : Draft.Reads ⟨.arrayOf "codec" (done ++ [es ++ [("options", .table .header [])]]),
      ["codec", "options"]⟩ rest root) :
    Draft.Reads ⟨.arrayOf "codec" (done ++ [es]), opened⟩ ("[codec.options]\n".toList ++ rest)
      root := by
  have line : ∀ d, Toml.readLine d ("[codec.options]\n".toList ++ rest) =
      (d.openTable ["codec", "options"]).map (·, rest) := fun d => rfl
  refine .line ?_ (by simp) below
  rw [line, Draft.openTable_element fresh]
  rfl

theorem reads_options (known : List (String × String)) (own : es.lookup "options" = none)
    (distinct : ((known ++ options).map (·.1)).Nodup)
    (below : Draft.Reads ⟨.arrayOf "codec"
      (done ++ [es ++ [("options", .table .header (optionTable (known ++ options)))]]),
        ["codec", "options"]⟩ rest root) :
    Draft.Reads ⟨.arrayOf "codec"
      (done ++ [es ++ [("options", .table .header (optionTable known))]]), ["codec", "options"]⟩
        ((options.flatMap fun e => writePair e.1 e.2) ++ rest) root := by
  induction options generalizing known with
  | nil => rwa [List.append_nil] at below
  | cons e options ih =>
    have fresh : e.1 ∉ known.map (·.1) := by
      rw [List.map_append, List.map_cons, List.nodup_append] at distinct
      exact fun before => distinct.2.2 _ before _ List.mem_cons_self rfl
    rw [List.append_cons known] at distinct below
    rw [List.flatMap_cons, List.append_assoc]
    refine reads_pair (Draft.addPair_table own (lookup_optionTable fresh) _) ?_
    have added : optionTable known ++ [(e.1, .text e.2)] = optionTable (known ++ [e]) := by
      simp [optionTable]
    rw [added]
    exact ih (known ++ [e]) distinct below

/-- A section, line by line. -/
theorem Section.write_append (s : Section) (rest : List Char) :
    s.write ++ rest = "[[codec]]\n".toList ++ (writePair "name" s.name ++
      (writePair "implementation" s.implementation ++ (['\n'] ++ ("[codec.options]\n".toList ++
        ((s.options.flatMap fun e => writePair e.1 e.2) ++ rest))))) := by
  have blank : "\n[codec.options]\n".toList = ['\n'] ++ "[codec.options]\n".toList := rfl
  delta Section.write
  rw [blank]
  simp only [List.append_assoc]

/-- A section adds one element to the array. -/
theorem reads_section (done : List Entries) {s : Section} (distinct : (s.options.map (·.1)).Nodup)
    (below : Draft.Reads ⟨.arrayOf "codec" (done ++ [s.table]), ["codec", "options"]⟩ rest root)
    (opened : List String) :
    Draft.Reads ⟨.arrayOf "codec" done, opened⟩ (s.write ++ rest) root := by
  rw [Section.write_append]
  apply reads_header
  apply reads_pair (Draft.addPair_element rfl (.text s.name))
  apply reads_pair (Draft.addPair_element rfl (.text s.implementation))
  apply Draft.Reads.line (readLine_blank _ _) (List.cons_ne_nil _ _)
  apply reads_optionsHeader rfl
  exact reads_options [] rfl distinct below

/-- Sections below others, each after an empty line. -/
theorem reads_sections {ss : List Section} (distinct : ∀ s ∈ ss, (s.options.map (·.1)).Nodup)
    (opened : List String) :
    Draft.Reads ⟨.arrayOf "codec" done, opened⟩ (ss.flatMap fun s => ['\n'] ++ s.write)
      (.arrayOf "codec" (done ++ ss.map Section.table)) := by
  induction ss generalizing done opened with
  | nil =>
    rw [List.flatMap_nil, List.map_nil, List.append_nil]
    exact Draft.reads_nil _
  | cons s ss ih =>
    rw [List.forall_mem_cons] at distinct
    rw [List.flatMap_cons, List.append_assoc, List.map_cons, List.append_cons]
    apply Draft.Reads.line (readLine_blank _ _) (List.cons_ne_nil _ _)
    exact reads_section done distinct.1 (ih distinct.2 _) _

/-- The document of some sections holds an array of their tables. -/
theorem readDocument_render {s : Section} {ss : List Section}
    (distinct : ∀ t ∈ s :: ss, (t.options.map (·.1)).Nodup) :
    Toml.readDocument (render (s :: ss)) =
      .ok (.arrayOf "codec" ((s :: ss).map Section.table)) := by
  rw [List.forall_mem_cons] at distinct
  rw [render, if_neg (by simp), List.map_cons, intercalate_cons, List.flatMap_map]
  apply Toml.readDocument_reads
  · rw [Section.write_append]
    exact ne_of_beq_false rfl
  · exact reads_section [] distinct.1 (reads_sections distinct.2 _) []

/-- The document without sections holds an empty array of values. -/
theorem readDocument_empty : Toml.readDocument (render []) = .ok [("codec", .array [])] := by
  have space : Toml.skipItemSpace [']', '\n'] = [']', '\n'] := by
    rw [Toml.skipItemSpace]
    rfl
  have value : Toml.readValue false Toml.depthLimit ['[', ']', '\n'] = .ok (.array [], ['\n']) := by
    rw [Toml.depthLimit, Toml.readValue, Toml.readItems, space]
    rfl
  have key : Toml.readKey "codec = []\n".toList = .ok (["codec"], "= []\n".toList) := rfl
  have gap : Toml.skipBlanks " []\n".toList = ['[', ']', '\n'] := rfl
  have pair : Toml.readPair (Toml.readValue false Toml.depthLimit) "codec = []\n".toList =
      .ok ((["codec"], .array []), ['\n']) := by
    have mark : Toml.readMark '=' "= []\n".toList = .ok " []\n".toList := rfl
    simp only [Toml.readPair, key, mark, gap, value, bind, Except.bind]
    rfl
  have line : Toml.readLine {} ("codec = []\n".toList ++ []) =
      (Toml.readPair (Toml.readValue false Toml.depthLimit) "codec = []\n".toList).bind fun found =>
        (Toml.endLine found.2).bind fun rest =>
          (Draft.addPair {} found.1.1 found.1.2).map (·, rest) := rfl
  rw [pair] at line
  exact Toml.readDocument_reads (by decide) (.line line (by simp) (Draft.reads_nil _))

/-! Descriptors in the tables of a document. -/

theorem readOptions_table (options : List (String × String)) :
    readOptions (.table .header (optionTable options)) = .ok (Options.ofList options) := by
  have texts : (optionTable options).mapM (fun e => return (e.1, ← readText e.2)) =
      (.ok options : Except DocumentFault _) := by
    rw [optionTable, List.mapM_map]
    exact List.mapM_pure.trans (congrArg _ (List.map_id options))
  simp only [readOptions, entries?, texts]
  rfl

theorem readDescriptor_table (s : Section) :
    readDescriptor (.table .header s.table) =
      .ok ⟨s.name, s.implementation, Options.ofList s.options⟩ := by
  have fields : s.table.foldlM Fields.read {} =
      .ok ⟨some s.name, some s.implementation, some (Options.ofList s.options)⟩ := by
    simp only [Section.table, List.foldlM_cons, List.foldlM_nil, Fields.read, readOptions_table]
    rfl
  simp only [readDescriptor, entries?, fields]
  rfl

theorem read_render {ss : List Section} (distinct : ∀ s ∈ ss, (s.options.map (·.1)).Nodup) :
    read (render ss) =
      .ok (ss.map fun s => ⟨s.name, s.implementation, Options.ofList s.options⟩) := by
  cases ss with
  | nil =>
    rw [read, readDocument_empty]
    rfl
  | cons s ss =>
    have array : List.lookup "codec" (Entries.arrayOf "codec" ((s :: ss).map Section.table)) =
        some (.tables ((s :: ss).map Section.table)) := rfl
    have elements : items? (.tables ((s :: ss).map Section.table)) =
        some ((s :: ss).map fun s => .table .header s.table) := by
      rw [items?, List.map_map]
      rfl
    simp only [read, readDocument_render distinct, array, elements]
    rw [List.mapM_map]
    exact (congrArg (fun f => (s :: ss).mapM f) (funext readDescriptor_table)).trans List.mapM_pure

/-! Writing and reading. -/

/-- A section of a descriptor: its options stand in any order. -/
structure Section.Orders (s : Section) (d : Descriptor) : Prop where
  name : s.name = d.name
  implementation : s.implementation = d.implementation
  options : s.options.Perm d.options.entries

namespace Section.Orders

variable {s : Section} {d : Descriptor}

theorem distinct (orders : s.Orders d) : (s.options.map (·.1)).Nodup :=
  (orders.options.map _).nodup_iff.mpr d.options.nodup_keys

theorem descriptor (orders : s.Orders d) :
    Descriptor.mk s.name s.implementation (Options.ofList s.options) = d := by
  rw [orders.name, orders.implementation, Options.ofList_perm orders.options]

theorem mem_texts (orders : s.Orders d) {text : String} :
    text ∈ s.texts ↔ text ∈ (Section.of d).texts := by
  simp only [texts, Section.of, List.mem_cons, orders.name, orders.implementation,
    (orders.options.map _).mem_iff]

end Section.Orders

/-- A text with 256 equal quotes in a row, more than the writer counts. -/
def Overruns (text : String) : Prop :=
  ∃ q, Toml.isQuote q = true ∧ List.replicate 256 q <:+: text.toList

theorem isCountable_iff (text : String) :
    (Toml.Shape.of text.toList).isCountable = true ↔ ¬Overruns text := by
  have counted : ∀ q, Toml.longestRun q text.toList < 256 ↔
      ¬List.replicate 256 q <:+: text.toList := by
    intro q
    rw [← Toml.le_longestRun, Nat.not_le]
  simp only [Toml.Shape.isCountable, Toml.Shape.of, Bool.and_eq_true, decide_eq_true_eq, counted,
    Overruns, Toml.isQuote, Bool.or_eq_true]
  constructor
  · rintro ⟨double, single⟩ ⟨q, rfl | rfl, inside⟩
    · exact double inside
    · exact single inside
  · intro none
    exact ⟨fun inside => none ⟨_, .inl rfl, inside⟩, fun inside => none ⟨_, .inr rfl, inside⟩⟩

theorem render_ne_empty (ss : List Section) : render ss ≠ "" := by
  cases ss with
  | nil => decide
  | cons s ss =>
    intro none
    rw [render, if_neg (by simp), List.map_cons, intercalate_cons, Section.write_append] at none
    have length := congrArg (·.toList.length) none
    simp at length

variable {ds : List Descriptor} {ss : List Section}

theorem mem_texts_orders (orders : List.Forall₂ Section.Orders ss ds) (text : String) :
    text ∈ ss.flatMap Section.texts ↔ ∃ d ∈ ds, text ∈ (Section.of d).texts := by
  induction orders with
  | nil => simp
  | cons first others ih => simp [first.mem_texts, ih]

theorem descriptors_orders (orders : List.Forall₂ Section.Orders ss ds) :
    (∀ s ∈ ss, (s.options.map (·.1)).Nodup) ∧
      ss.map (fun s => Descriptor.mk s.name s.implementation (Options.ofList s.options)) = ds := by
  induction orders with
  | nil => exact ⟨List.forall_mem_nil _, rfl⟩
  | cons first others ih =>
    exact ⟨List.forall_mem_cons.mpr ⟨first.distinct, ih.1⟩, by
      rw [List.map_cons, first.descriptor, ih.2]⟩

/-- What comes of writing a configuration. The writer gives up exactly if some text, be it a name, an
implementation or the value of an option, overruns its counting; whatever else the texts contain and
whatever the order of the options, the document is not empty and is read as the same configuration. -/
structure RoundTrip (ds : List Descriptor) (ss : List Section) : Prop where
  refused : (∃ d ∈ ds, ∃ text ∈ (Section.of d).texts, Overruns text) →
    write ss = .error .quoteOverflow
  restored : (∀ d ∈ ds, ∀ text ∈ (Section.of d).texts, ¬Overruns text) →
    ∃ document, write ss = .ok document ∧ document ≠ "" ∧ read document = .ok ds

theorem round_trip (orders : List.Forall₂ Section.Orders ss ds) : RoundTrip ds ss where
  refused := by
    rintro ⟨d, member, text, among, overruns⟩
    have here := (mem_texts_orders orders text).mpr ⟨d, member, among⟩
    refine if_neg fun all => ?_
    exact (isCountable_iff text).mp (List.all_eq_true.mp all text here) overruns
  restored := by
    intro countable
    obtain ⟨distinct, same⟩ := descriptors_orders orders
    refine ⟨render ss, if_pos (List.all_eq_true.mpr fun text here => ?_), render_ne_empty ss, ?_⟩
    · obtain ⟨d, member, among⟩ := (mem_texts_orders orders text).mp here
      exact (isCountable_iff text).mpr (countable d member text among)
    · rw [read_render distinct, same]

def manyForms : Descriptor :=
  ⟨"it's \"quoted\"", "C:\\codecs", .ofList [("", ""), ("a b", "\x00"), ("z", "\n'''\"\"\"")]⟩

def manyFormsSection : Section :=
  ⟨"it's \"quoted\"", "C:\\codecs", [("z", "\n'''\"\"\""), ("", ""), ("a b", "\x00")]⟩

theorem manyForms_restored : List.Forall₂ Section.Orders [manyFormsSection] [manyForms] ∧
    ∃ document, write [manyFormsSection] = .ok document ∧ document ≠ "" ∧
      read document = .ok [manyForms] := by
  have orders : List.Forall₂ Section.Orders [manyFormsSection] [manyForms] :=
    .cons ⟨rfl, rfl, by decide +kernel⟩ .nil
  have countable : ∀ text ∈ (Section.of manyForms).texts,
      (Toml.Shape.of text.toList).isCountable = true := by decide +kernel
  refine ⟨orders, (round_trip orders).restored fun d member text among => ?_⟩
  cases List.mem_singleton.mp member
  exact (isCountable_iff text).mp (countable text among)

/-- A name of as many apostrophes as the writer does not count. -/
def apostrophes : Descriptor := ⟨String.ofList (List.replicate 256 '\''), "json", .empty⟩

theorem apostrophes_refused : ¬∃ document, write [Section.of apostrophes] = .ok document ∧
    read document = .ok [apostrophes] := by
  have row : apostrophes.name.toList = List.replicate 256 '\'' := String.toList_ofList
  have overruns : Overruns apostrophes.name := ⟨'\'', rfl, row ▸ List.infix_rfl⟩
  have refused : ¬([Section.of apostrophes].flatMap Section.texts).all
      (fun text => (Toml.Shape.of text.toList).isCountable) = true := by
    intro all
    have counted := List.all_eq_true.mp all apostrophes.name (by simp [Section.texts, Section.of])
    exact (isCountable_iff apostrophes.name).mp counted overruns
  rintro ⟨document, written, -⟩
  rw [write, if_neg refused] at written
  cases written

end Configuration

end Logbook
