import Logbook.Proofs.Success
import Logbook.Proofs.Text.Number
import Logbook.Toml.Quoted

/-! Strings and keys of TOML: whatever a text contains, it is read back from the form in which it is
written. -/
namespace Logbook.Toml

variable {c d e q : Char} {cs content spelled rest after : List Char} {n : Nat}

/-! Characters of basic strings. -/

theorem hexValue?_upper {d : Nat} (small : d < 16) :
    hexValue? (Text.digitChar d).toUpper = some d := by
  have each : ∀ d, d < 16 → hexValue? (Text.digitChar d).toUpper = some d := by decide
  exact each d small

theorem upperHex_four {n : Nat} (low : n < 0x80) :
    upperHex 4 n =
      ['0', '0', (Text.digitChar (n / 16)).toUpper, (Text.digitChar (n % 16)).toUpper] := by
  by_cases one : n < 16
  · have none : n / 16 = 0 := by omega
    have self : n % 16 = n := by omega
    rw [upperHex, Text.digitsInto_last one, none, self]
    rfl
  · rw [upperHex, Text.digitsInto_more (by decide) (by omega), Text.digitsInto_last (by omega)]
    rfl

theorem codePoint?_upperHex (low : c.toNat < 0x80) :
    codePoint? (upperHex 4 c.toNat) = some c := by
  have zero : hexValue? '0' = some 0 := rfl
  have parts : c.toNat / 16 * 16 + c.toNat % 16 = c.toNat := by omega
  have valid : c.toNat.isValidChar := c.valid
  simp [codePoint?, upperHex_four low, zero, hexValue?_upper (d := c.toNat / 16) (by omega),
    hexValue?_upper (d := c.toNat % 16) (by omega), parts, valid, Char.ofNat_toNat]

theorem readEscape_letter (known : simpleEscape? e = some c) (rest : List Char) :
    ∃ short, readEscape (e :: rest) = .ok (c, ⟨rest, short⟩) := by
  have four : e ≠ 'u' := by
    rintro rfl
    cases known
  have eight : e ≠ 'U' := by
    rintro rfl
    cases known
  exact ⟨Nat.le_succ _, by simp only [readEscape, if_neg four, if_neg eight, known]⟩

theorem readEscape_number {ds : List Char} (four : ds.length = 4) (names : codePoint? ds = some c)
    (rest : List Char) : ∃ short, readEscape ('u' :: ds ++ rest) = .ok (c, ⟨rest, short⟩) := by
  have long : ¬(ds ++ rest).length < 4 := by
    rw [List.length_append]
    omega
  have front : (ds ++ rest).take 4 = ds := List.take_left' four
  have back : (ds ++ rest).drop 4 = rest := List.drop_left' four
  refine ⟨by simp; omega, ?_⟩
  simp only [List.cons_append, readEscape, if_true, if_neg long, front, names, back]

/-- The ways in which a character is written in a basic string. -/
inductive Spelling (c : Char) : List Char → Prop where
  | letter {e : Char} : simpleEscape? e = some c → Spelling c ['\\', e]
  | number {ds : List Char} : ds.length = 4 → codePoint? ds = some c →
      Spelling c ('\\' :: 'u' :: ds)
  | plain : c ≠ '"' → c ≠ '\\' → isControl c = false → Spelling c [c]

theorem spelling_escapeBasic (quote : c ≠ '"') : Spelling c (escapeBasic c) := by
  -- in the order of the tests; what is left over is neither a quote, a backslash nor a control
  rw [escapeBasic]
  split
  case isTrue back => exact .letter (by rw [back]; rfl)
  split
  case isTrue tab => exact .letter (by rw [tab]; rfl)
  split
  case isTrue line => exact .letter (by rw [line]; rfl)
  split
  case isTrue feed => exact .letter (by rw [feed]; rfl)
  split
  case isTrue carriage => exact .letter (by rw [carriage]; rfl)
  split
  case isTrue slash => exact .letter (by rw [slash]; rfl)
  case isFalse slash =>
  split
  case isTrue control =>
    have low : c.toNat < 0x80 := by
      simp only [isControl, Bool.or_eq_true, Bool.and_eq_true, decide_eq_true_eq] at control
      omega
    exact .number (by rw [upperHex_four low]; rfl) (codePoint?_upperHex low)
  case isFalse plain => exact .plain quote slash (Bool.not_eq_true _ ▸ plain)

/-- What is written for a character starts neither with a quote nor with a control. -/
theorem Spelling.head (spelling : Spelling c spelled) :
    ∃ d more, spelled = d :: more ∧ d ≠ '"' ∧ isControl d = false := by
  cases spelling with
  | letter => exact ⟨'\\', _, rfl, by decide, rfl⟩
  | number => exact ⟨'\\', _, rfl, by decide, rfl⟩
  | plain quote _ control => exact ⟨c, _, rfl, quote, control⟩

theorem Spelling.readBasic (spelling : Spelling c spelled)
    (ok : readBasic rest = .ok (content, after)) :
    readBasic (spelled ++ rest) = .ok (c :: content, after) := by
  cases spelling with
  | @letter e known =>
    obtain ⟨short, escape⟩ := readEscape_letter known rest
    rw [List.cons_append, Toml.readBasic, if_neg (by decide), if_pos rfl, List.cons_append,
      List.nil_append, escape]
    simp only [bind, Except.bind, ok]
    rfl
  | @number ds four names =>
    obtain ⟨short, escape⟩ := readEscape_number four names rest
    rw [List.cons_append, Toml.readBasic, if_neg (by decide), if_pos rfl, escape]
    simp only [bind, Except.bind, ok]
    rfl
  | plain quote slash control =>
    rw [List.cons_append, List.nil_append, Toml.readBasic, if_neg quote, if_neg slash, control, ok]
    rfl

/-- A text is read back from a basic string on one line, whatever follows its closing quote. -/
theorem readBasic_content (seen : Nat) (cs rest : List Char) :
    readBasic (basicContent false 0 seen cs ++ '"' :: rest) = .ok (cs, rest) := by
  induction cs generalizing seen with
  | nil =>
    rw [basicContent, List.nil_append, readBasic, if_pos rfl]
  | cons c cs ih =>
    rw [basicContent]
    split
    case isTrue quote =>
      have spelling : Spelling c ['\\', '"'] := .letter (by rw [quote]; rfl)
      rw [if_pos (Nat.zero_le seen)]
      exact spelling.readBasic (ih 0)
    case isFalse quote =>
      rw [if_neg (by simp), List.append_assoc]
      exact (spelling_escapeBasic quote).readBasic (ih 0)

/-- A text without the quote and controls is read back from a literal string on one line. -/
theorem readLiteral_content (quote : '\'' ∉ cs) (printable : ∀ c ∈ cs, isControl c = false)
    (rest : List Char) : readLiteral (cs ++ '\'' :: rest) = .ok (cs, rest) := by
  induction cs with
  | nil => rw [List.nil_append, readLiteral, if_pos rfl]
  | cons c cs ih =>
    rw [List.forall_mem_cons] at printable
    rw [List.mem_cons, not_or] at quote
    rw [List.cons_append, readLiteral, if_neg (Ne.symm quote.1), printable.1,
      ih quote.2 printable.2]
    rfl

/-! Characters in a row. -/

/-- Of what stands around another character, a row is on one side. -/
theorem replicate_infix_around (other : d ≠ c) {xs ys : List Char} :
    List.replicate n c <:+: xs ++ d :: ys ↔
      List.replicate n c <:+: xs ∨ List.replicate n c <:+: ys := by
  have starts : ∀ {row : List Char}, (∀ b ∈ row, b = c) → row <+: d :: ys → row = [] := by
    intro row all front
    rcases List.prefix_cons_iff.mp front with none | ⟨tail, rfl, -⟩
    · exact none
    · exact absurd (all d List.mem_cons_self) other
  have all : ∀ b ∈ List.replicate n c, b = c := fun b => List.eq_of_mem_replicate
  constructor
  · intro inside
    rcases List.infix_append_iff.mp inside with left | right | ⟨front, back, split, left, right⟩
    · exact .inl left
    · rcases List.infix_cons_iff.mp right with here | below
      · rw [starts all here]
        exact .inl (List.nil_infix)
      · exact .inr below
    · have none : back = [] :=
        starts (fun b member => all b (split ▸ List.mem_append_right front member)) right
      rw [none, List.append_nil] at split
      exact .inl (split ▸ left.isInfix)
  · rintro (left | right)
    · exact left.trans (List.prefix_append xs _).isInfix
    · exact right.trans ((List.suffix_cons d ys).trans (List.suffix_append xs _)).isInfix

/-- The longest row is at least as long as each one in the text, where `run.1` of the character were
counted just before and `run.2` are known from before. -/
theorem le_foldl_run (run : Nat × Nat) (known : run.1 ≤ run.2) :
    n ≤ (cs.foldl (fun run d => if d = c then (run.1 + 1, max run.2 (run.1 + 1)) else (0, run.2))
      run).2 ↔ n ≤ run.2 ∨ List.replicate n c <:+: List.replicate run.1 c ++ cs := by
  induction cs generalizing run with
  | nil =>
    simp only [List.foldl_nil, List.append_nil, List.infix_replicate_iff, List.length_replicate]
    omega
  | cons d cs ih =>
    rw [List.foldl_cons]
    split
    case isTrue same =>
      subst same
      have more : List.replicate run.1 d ++ d :: cs = List.replicate (run.1 + 1) d ++ cs := by
        rw [List.replicate_succ', List.append_assoc, List.singleton_append]
      have short : n ≤ run.1 + 1 →
          List.replicate n d <:+: List.replicate (run.1 + 1) d ++ cs := fun small =>
        (List.infix_replicate_iff.mpr (by simpa using small)).trans (List.prefix_append _ _).isInfix
      rw [ih _ (by simp only; omega), more]
      simp only
      constructor
      · rintro (small | inside)
        · by_cases before : n ≤ run.2
          · exact .inl before
          · exact .inr (short (by omega))
        · exact .inr inside
      · rintro (small | inside)
        · exact .inl (by omega)
        · exact .inr inside
    case isFalse other =>
      rw [ih _ (Nat.zero_le _), replicate_infix_around other, List.infix_replicate_iff,
        List.length_replicate]
      simp only [List.replicate_zero, List.nil_append]
      constructor
      · rintro (small | inside)
        · exact .inl small
        · exact .inr (.inr inside)
      · rintro (small | counted | inside)
        · exact .inl small
        · exact .inl (Nat.le_trans counted.1 known)
        · exact .inr inside

theorem le_longestRun : n ≤ longestRun c cs ↔ List.replicate n c <:+: cs := by
  rw [longestRun, le_foldl_run (0, 0) (Nat.le_refl _)]
  simp only [List.replicate_zero, List.nil_append, or_iff_right_iff_imp, Nat.le_zero_eq]
  rintro rfl
  exact List.nil_infix

/-! Strings on many lines. -/

theorem closing?_other (other : c ≠ q) (cs : List Char) : closing? q (c :: cs) = none := by
  match cs with
  | [] => rfl
  | [_] => rfl
  | _ :: _ :: _ => simp [closing?, other]

/-- Up to two quotes at the end of a text stand before the three that close the string. -/
theorem closing?_quotes (few : ¬List.replicate 3 q <+: content) (quotes : ∀ c ∈ content, c = q)
    (apart : rest.head? ≠ some q) :
    closing? q (content ++ List.replicate 3 q ++ rest) = some (content, rest) := by
  have row := List.eq_replicate_of_mem quotes
  have short : content.length < 3 := by
    refine Nat.lt_of_not_le fun long => few ?_
    rw [row, List.prefix_replicate_iff]
    simpa using long
  have none : rest.takeWhile (· = q) = [] := by
    cases rest with
    | nil => rfl
    | cons c rest =>
      have other : c ≠ q := fun same => apart (congrArg some same)
      simp [other]
  generalize content.length = n at row short
  subst row
  match n with
  | 0 => simp [closing?, List.replicate_succ, none]
  | 1 => simp [closing?, List.replicate_succ, none]
  | 2 => simp [closing?, List.replicate_succ, none]

/-- A text that is not only quotes and has no three in front does not end there. -/
theorem closing?_eq_none (few : ¬List.replicate 3 q <+: content) (more : ¬∀ c ∈ content, c = q)
    (rest : List Char) : closing? q (content ++ List.replicate 3 q ++ rest) = none := by
  match content with
  | [] => simp at more
  | [a] =>
    have other : a ≠ q := by simpa using more
    simp [closing?, other, List.replicate_succ]
  | [a, b] =>
    have other : a = q → b ≠ q := by
      rintro rfl rfl
      simp at more
    simp only [List.replicate_succ, List.cons_append, closing?]
    exact if_neg fun quotes => other quotes.1 quotes.2.1
  | a :: b :: c :: content =>
    simp only [List.cons_append, closing?]
    refine if_neg fun ⟨first, second, third⟩ => few ?_
    subst first second third
    exact ⟨content, rfl⟩

theorem afterBreak?_plain (plain : isControl c = false) (cs : List Char) :
    afterBreak? (c :: cs) = none := by
  rw [afterBreak?]
  all_goals
    intro below same
    cases same
    cases plain

def Printable (cs : List Char) : Prop := ∀ c ∈ cs, c = '\n' ∨ isControl c = false

theorem readLiteralLines_content (few : ¬List.replicate 3 '\'' <:+: cs) (printable : Printable cs)
    (apart : rest.head? ≠ some '\'') :
    readLiteralLines (cs ++ List.replicate 3 '\'' ++ rest) = .ok (cs, rest) := by
  have ended : ∀ cs : List Char, ¬List.replicate 3 '\'' <:+: cs → (∀ c ∈ cs, c = '\'') →
      readLiteralLines (cs ++ List.replicate 3 '\'' ++ rest) = .ok (cs, rest) := by
    intro cs few quotes
    -- what is left and the closing quotes are one row, whose last three quotes close the string
    rw [readLiteralLines.eq_def, closing?_quotes (fun front => few front.isInfix) quotes apart]
  induction cs with
  | nil => exact ended [] few (List.forall_mem_nil _)
  | cons c cs ih =>
    by_cases quotes : ∀ d ∈ c :: cs, d = '\''
    · exact ended (c :: cs) few quotes
    have goesOn := closing?_eq_none (fun front => few front.isInfix) quotes rest
    have tail := ih (fun inside => few (inside.trans (List.suffix_cons c cs).isInfix))
      fun d member => printable d (List.mem_cons_of_mem c member)
    rw [readLiteralLines.eq_def, goesOn]
    rcases printable c List.mem_cons_self with rfl | plain
    · simp only [List.cons_append, afterBreak?, tail]
      rfl
    · simp only [List.cons_append, afterBreak?_plain plain, plain, tail]
      rfl

/-- No more quotes in a row stand in front of a content than are left. -/
theorem prefix_basicContent {lines : Bool} {quotes seen : Nat}
    (front : List.replicate n '"' <+: basicContent lines quotes seen cs) :
    n = 0 ∨ n + seen ≤ quotes := by
  induction cs generalizing n seen with
  | nil =>
    rw [basicContent, List.prefix_nil, List.replicate_eq_nil_iff] at front
    exact .inl front
  | cons c cs ih =>
    cases n with
    | zero => exact .inl rfl
    | succ n =>
      rw [List.replicate_succ, basicContent] at front
      split at front
      case isTrue quote =>
        split at front
        case isTrue full => simp at front
        case isFalse left =>
          rcases ih (List.cons_prefix_cons.mp front).2 with rfl | few
          · exact .inr (by omega)
          · exact .inr (by omega)
      case isFalse quote =>
        split at front
        case isTrue => simp at front
        case isFalse =>
          obtain ⟨d, more, same, other, -⟩ := (spelling_escapeBasic quote).head
          rw [same] at front
          exact absurd (List.cons_prefix_cons.mp front).1.symm other

/-- Of a content that is only quotes none was written with a backslash. -/
theorem basicContent_quotes {lines : Bool} {quotes seen : Nat}
    (all : ∀ c ∈ basicContent lines quotes seen cs, c = '"') :
    basicContent lines quotes seen cs = cs := by
  induction cs generalizing seen with
  | nil => rfl
  | cons c cs ih =>
    rw [basicContent] at all ⊢
    split at all
    case isTrue quote =>
      rw [if_pos quote]
      split at all
      case isTrue => simp at all
      case isFalse left =>
        rw [if_neg left, ih (List.forall_mem_cons.mp all).2, quote]
    case isFalse quote =>
      split at all
      case isTrue => simp at all
      case isFalse =>
        obtain ⟨d, more, same, other, -⟩ := (spelling_escapeBasic quote).head
        rw [same] at all
        exact absurd (all d (by simp)) other

theorem skipBlanks_solid (solid : isBlank c = false) (cs : List Char) :
    skipBlanks (c :: cs) = c :: cs := by
  rw [skipBlanks, List.dropWhile_cons_of_neg (by simp [solid])]

/-- A backslash with something else than a line break after it begins an escape. -/
theorem readBasicLines_escape (blank : isBlank e = false) (plain : isControl e = false)
    {short : rest.length ≤ (e :: cs).length} (escape : readEscape (e :: cs) = .ok (c, ⟨rest, short⟩))
    (ok : readBasicLines rest = .ok (content, after)) :
    readBasicLines ('\\' :: e :: cs) = .ok (c :: content, after) := by
  have solid : afterBreak? (skipBlanks (e :: cs)) = none := by
    rw [skipBlanks_solid blank, afterBreak?_plain plain]
  rw [readBasicLines.eq_def, closing?_other (by decide)]
  simp only [if_true, solid, escape, bind, Except.bind, ok]
  rfl

theorem simpleEscape?_solid (known : simpleEscape? e = some c) :
    isBlank e = false ∧ isControl e = false := by
  simp only [simpleEscape?] at known
  repeat' split at known
  all_goals cases known
  all_goals
    subst e
    exact ⟨rfl, rfl⟩

theorem readBasicLines_raw (goesOn : closing? '"' (c :: cs) = none) (slash : c ≠ '\\')
    (plain : isControl c = false) (ok : readBasicLines cs = .ok (content, after)) :
    readBasicLines (c :: cs) = .ok (c :: content, after) := by
  rw [readBasicLines.eq_def, goesOn]
  simp only [if_neg slash, afterBreak?_plain plain, plain, ok]
  rfl

theorem Spelling.readBasicLines (spelling : Spelling c spelled)
    (ok : readBasicLines rest = .ok (content, after)) :
    readBasicLines (spelled ++ rest) = .ok (c :: content, after) := by
  cases spelling with
  | letter known =>
    obtain ⟨short, escape⟩ := readEscape_letter known rest
    obtain ⟨blank, plain⟩ := simpleEscape?_solid known
    exact readBasicLines_escape blank plain escape ok
  | number four names =>
    obtain ⟨short, escape⟩ := readEscape_number four names rest
    exact readBasicLines_escape rfl rfl escape ok
  | plain quote slash control =>
    exact readBasicLines_raw (closing?_other quote rest) slash control ok

theorem readBasicLines_content (apart : rest.head? ≠ some '"') (seen : Nat) (cs : List Char) :
    readBasicLines (basicContent true 2 seen cs ++ List.replicate 3 '"' ++ rest) =
      .ok (cs, rest) := by
  have few : ∀ {seen cs}, ¬List.replicate 3 '"' <+: basicContent true 2 seen cs := by
    intro seen cs front
    rcases prefix_basicContent front with none | few
    · cases none
    · omega
  have ended : ∀ {seen cs}, (∀ c ∈ basicContent true 2 seen cs, c = '"') →
      readBasicLines (basicContent true 2 seen cs ++ List.replicate 3 '"' ++ rest) =
        .ok (cs, rest) := by
    intro seen cs quotes
    rw [readBasicLines.eq_def, closing?_quotes few quotes apart, basicContent_quotes quotes]
  -- induction on the text: quotes at its end go with the closing ones, all else is read one by one
  induction cs generalizing seen with
  | nil => exact ended (List.forall_mem_nil _)
  | cons c cs ih =>
    by_cases quotes : ∀ d ∈ basicContent true 2 seen (c :: cs), d = '"'
    · exact ended quotes
    have goesOn := closing?_eq_none few quotes rest
    rw [basicContent] at goesOn ⊢
    split
    case isTrue quote =>
      subst quote
      split
      case isTrue full =>
        have spelling : Spelling '"' ['\\', '"'] := .letter rfl
        exact spelling.readBasicLines (ih 0)
      case isFalse left =>
        rw [if_pos rfl, if_neg left] at goesOn
        exact readBasicLines_raw goesOn (by decide) rfl (ih (seen + 1))
    case isFalse quote =>
      split
      case isTrue line =>
        obtain rfl : c = '\n' := by simpa using line
        rw [List.cons_append, List.cons_append, readBasicLines.eq_def, closing?_other (by decide)]
        simp only [afterBreak?, ih]
        rfl
      case isFalse line =>
        simp only [List.append_assoc] at ih ⊢
        exact (spelling_escapeBasic quote).readBasicLines (ih 0)

/-! The form of a string. -/

theorem afterBreak?_content (front : ∀ c ∈ content.head?, isControl c = false)
    (quote : isControl q = false) (rest : List Char) :
    afterBreak? (content ++ List.replicate 3 q ++ rest) = none := by
  cases content with
  | nil => exact afterBreak?_plain quote _
  | cons c content => exact afterBreak?_plain (front c rfl) _

/-- A content starts below the opening quotes exactly if it has a line break, so that a break at its
front is not lost. -/
theorem skipFirstBreak_lines {breaks : Bool} (quote : isControl q = false)
    (front : breaks = false → ∀ c ∈ content.head?, isControl c = false) (rest : List Char) :
    skipFirstBreak ((if breaks then ['\n'] else []) ++ content ++ List.replicate 3 q ++ rest) =
      content ++ List.replicate 3 q ++ rest := by
  cases breaks with
  | true => rfl
  | false =>
    have none := afterBreak?_content (front rfl) quote rest
    change skipFirstBreak (content ++ List.replicate 3 q ++ rest) = _
    simp only [skipFirstBreak, none]

theorem head_basicContent {seen : Nat} (flat : '\n' ∉ cs) :
    ∀ c ∈ (basicContent true 2 seen cs).head?, isControl c = false := by
  cases cs with
  | nil => simp [basicContent]
  | cons c cs =>
    rw [List.mem_cons, not_or] at flat
    rw [basicContent]
    split
    · split
      · simp [isControl]
      · simp [isControl]
    case isFalse quote =>
      obtain ⟨d, more, same, -, plain⟩ := (spelling_escapeBasic quote).head
      rw [if_neg (by simp [Ne.symm flat.1]), same]
      simpa using plain

theorem notMem_of_longestRun (none : longestRun q cs = 0) : q ∉ cs := by
  intro member
  obtain ⟨front, back, rfl⟩ := List.append_of_mem member
  have one : 1 ≤ longestRun q (front ++ q :: back) := le_longestRun.mpr ⟨front, back, by simp⟩
  omega

/-- No text has three quotes in a row if the longest row has two. -/
theorem few_quotes (few : longestRun q cs ≤ 2) : ¬List.replicate 3 q <:+: cs := fun inside =>
  absurd (le_longestRun.mpr inside) (by omega)

theorem printable_of_control (none : (Shape.of cs).control = false) : Printable cs := by
  intro c member
  have plain := List.any_eq_false.mp none c member
  by_cases line : c = '\n'
  · exact .inl line
  · exact .inr (by simpa [line] using plain)

theorem flat_of_breaks (none : (Shape.of cs).breaks = false) : '\n' ∉ cs :=
  fun member => Bool.eq_false_iff.mp none (List.contains_iff_mem.mpr member)

theorem Printable.flat (printable : Printable cs) (flat : '\n' ∉ cs) :
    ∀ c ∈ cs, isControl c = false := by
  intro c member
  rcases printable c member with rfl | plain
  · exact absurd member flat
  · exact plain

theorem printable_of_asLiteral (literal : (Shape.of cs).asLiteral = true) :
    '\'' ∉ cs ∧ ∀ c ∈ cs, isControl c = false := by
  simp only [Shape.asLiteral, Bool.and_eq_true, Bool.not_eq_true', decide_eq_true_eq] at literal
  obtain ⟨⟨control, breaks⟩, quotes⟩ := literal
  exact ⟨notMem_of_longestRun quotes, (printable_of_control control).flat (flat_of_breaks breaks)⟩

theorem writeBasic_append (cs rest : List Char) :
    writeBasic cs ++ rest = '"' :: (basicContent false 0 0 cs ++ '"' :: rest) := by
  simp [writeBasic]

theorem writeLiteral_append (cs rest : List Char) :
    writeLiteral cs ++ rest = '\'' :: (cs ++ '\'' :: rest) := by
  simp [writeLiteral]

/-- One quote in front of a content is not taken for three. -/
theorem single_quote (front : content.head? ≠ some q) (apart : rest.head? ≠ some q)
    (more : List Char) : content ++ q :: rest ≠ q :: q :: more := by
  cases content with
  | nil =>
    rintro same
    exact apart (by rw [(List.cons.inj same).2]; rfl)
  | cons c content =>
    rintro same
    exact front (congrArg some (List.cons.inj same).1)

theorem readString_writeBasic (apart : rest.head? ≠ some '"') (cs : List Char) :
    readString (writeBasic cs ++ rest) = .ok (String.ofList cs, rest) := by
  have front : (basicContent false 0 0 cs).head? ≠ some '"' := by
    intro quote
    obtain ⟨more, same⟩ := List.head?_eq_some_iff.mp quote
    rcases prefix_basicContent (n := 1) ⟨more, same.symm⟩ with none | few
    · cases none
    · cases few
  rw [writeBasic_append, readString, readBasic_content]
  · rfl
  · exact single_quote front apart

theorem readString_writeLiteral (quote : '\'' ∉ cs) (printable : ∀ c ∈ cs, isControl c = false)
    (apart : rest.head? ≠ some '\'') :
    readString (writeLiteral cs ++ rest) = .ok (String.ofList cs, rest) := by
  have front : cs.head? ≠ some '\'' := fun here => quote (List.mem_of_mem_head? here)
  rw [writeLiteral_append, readString, readLiteral_content quote printable]
  · rfl
  · exact single_quote front apart

theorem lines_append (q : Char) (breaks : Bool) (content rest : List Char) :
    lines q breaks content ++ rest =
      q :: q :: q :: ((if breaks then ['\n'] else []) ++ content ++ List.replicate 3 q ++ rest) := by
  simp [lines, List.replicate_succ]

theorem readString_basicLines {breaks : Bool} (flat : breaks = false → '\n' ∉ cs)
    (apart : rest.head? ≠ some '"') :
    readString (lines '"' breaks (basicContent true 2 0 cs) ++ rest) =
      .ok (String.ofList cs, rest) := by
  have front : breaks = false → ∀ c ∈ (basicContent true 2 0 cs).head?, isControl c = false :=
    fun none => head_basicContent (flat none)
  rw [lines_append, readString, skipFirstBreak_lines rfl front, readBasicLines_content apart]
  rfl

theorem readString_literalLines {breaks : Bool} (flat : breaks = false → '\n' ∉ cs)
    (few : ¬List.replicate 3 '\'' <:+: cs) (printable : Printable cs)
    (apart : rest.head? ≠ some '\'') :
    readString (lines '\'' breaks cs ++ rest) = .ok (String.ofList cs, rest) := by
  have front : breaks = false → ∀ c ∈ cs.head?, isControl c = false :=
    fun none c here => printable.flat (flat none) c (List.mem_of_mem_head? here)
  rw [lines_append, readString, skipFirstBreak_lines rfl front,
    readLiteralLines_content few printable apart]
  rfl

/-- A text is read back from the form in which it is written, if no quote follows. -/
theorem readString_writeString (apart : ∀ q ∈ rest.head?, isQuote q = false) (cs : List Char) :
    readString (writeString cs ++ rest) = .ok (String.ofList cs, rest) := by
  have double : rest.head? ≠ some '"' := fun here => Bool.noConfusion (apart _ here)
  have single : rest.head? ≠ some '\'' := fun here => Bool.noConfusion (apart _ here)
  rw [writeString]
  -- a form other than the basic ones is only taken for texts that it shows as they are
  split
  · exact readString_writeBasic double cs
  split
  case isTrue literal =>
    obtain ⟨quote, printable⟩ := printable_of_asLiteral literal
    exact readString_writeLiteral quote printable single
  split
  · exact readString_basicLines flat_of_breaks double
  split
  case isTrue literal =>
    simp only [Shape.asLiteralLines, Bool.and_eq_true, Bool.not_eq_true', decide_eq_true_eq]
      at literal
    exact readString_literalLines flat_of_breaks (few_quotes literal.2)
      (printable_of_control literal.1) single
  split
  · exact readString_basicLines (fun none => absurd none (by decide)) double
  · exact readString_writeBasic double cs

theorem readKeyPart_writeBasic (cs rest : List Char) :
    readKeyPart (writeBasic cs ++ rest) = .ok (String.ofList cs, rest) := by
  rw [writeBasic_append, readKeyPart, readBasic_content]
  rfl

theorem readKeyPart_bare (filled : cs ≠ []) (bare : ∀ c ∈ cs, isBareKeyChar c = true)
    (apart : ∀ c ∈ rest.head?, isBareKeyChar c = false) :
    readKeyPart (cs ++ rest) = .ok (String.ofList cs, rest) := by
  have none : rest.takeWhile isBareKeyChar = [] ∧ rest.dropWhile isBareKeyChar = rest := by
    cases rest with
    | nil => exact ⟨rfl, rfl⟩
    | cons c rest => simp [apart c rfl]
  have front : (cs ++ rest).takeWhile isBareKeyChar = cs := by
    rw [List.takeWhile_append_of_pos bare, none.1, List.append_nil]
  have back : (cs ++ rest).dropWhile isBareKeyChar = rest := by
    rw [List.dropWhile_append_of_pos bare, none.2]
  rw [readKeyPart]
  · simp only [front, back, List.isEmpty_iff, if_neg filled]
  all_goals
    intro more same
    cases cs with
    | nil => exact filled rfl
    | cons c cs =>
      cases same
      exact absurd (bare _ List.mem_cons_self) (by decide)

/-- A key is read back from the form in which it is written, up to where no bare key goes on. -/
theorem readKeyPart_writeKey (apart : ∀ c ∈ rest.head?, isBareKeyChar c = false) (cs : List Char) :
    readKeyPart (writeKey cs ++ rest) = .ok (String.ofList cs, rest) := by
  rw [writeKey]
  split
  case isTrue bare =>
    rw [Bool.and_eq_true, List.all_eq_true] at bare
    exact readKeyPart_bare (by simpa using bare.1) bare.2 apart
  split
  · exact readKeyPart_writeBasic cs rest
  split
  case isTrue literal =>
    obtain ⟨quote, printable⟩ := printable_of_asLiteral literal
    rw [writeLiteral_append, readKeyPart, readLiteral_content quote printable]
    rfl
  · exact readKeyPart_writeBasic cs rest

end Logbook.Toml
