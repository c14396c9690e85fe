import Logbook.Toml.Table

/-!
Strings of TOML: basic ones with escapes and literal ones without, each on one line or on many.
The writer takes the first form that shows the text as it is, in the order basic, literal, and
then the same two on many lines; only a text that fits none of them is written with escapes.
-/
namespace Logbook.Toml

/-- Reads something from the front of a text. -/
abbrev Reader (α : Type) := List Char → Except Fault (α × List Char)

/-- Control characters other than the tab are never written as they are. -/
def isControl (c : Char) : Bool := (c.toNat < 0x20 && c ≠ '\t') || c.toNat = 0x7f

def isBlank (c : Char) : Bool := c = ' ' || c = '\t'

def hexValue? (c : Char) : Option Nat :=
  if '0' ≤ c && c ≤ '9' then some (c.toNat - 48)
  else if 'a' ≤ c && c ≤ 'f' then some (c.toNat - 87)
  else if 'A' ≤ c && c ≤ 'F' then some (c.toNat - 55)
  else none

/-- The character with the given hexadecimal digits; surrogates and numbers past the last code
point name none. -/
def codePoint? (digits : List Char) : Option Char := do
  let n ← digits.foldlM (fun n c => (n * 16 + ·) <$> hexValue? c) 0
  if n.isValidChar then some (Char.ofNat n) else none

/-- The character that a one-letter escape stands for. -/
def simpleEscape? (c : Char) : Option Char :=
  if c = 'b' then some '\x08'
  else if c = 't' then some '\t'
  else if c = 'n' then some '\n'
  else if c = 'f' then some '\x0c'
  else if c = 'r' then some '\r'
  else if c = '"' then some '"'
  else if c = '\\' then some '\\'
  else none

/-- The escape after a backslash. -/
def readEscape (cs : List Char) :
    Except Fault (Char × { rest : List Char // rest.length ≤ cs.length }) :=
  match cs with
  | [] => .error .malformed
  | c :: rest =>
    let numbered (width : Nat) :
        Except Fault (Char × { r : List Char // r.length ≤ rest.length + 1 }) :=
      if rest.length < width then .error .malformed
      else match codePoint? (rest.take width) with
        | some d => .ok (d, ⟨rest.drop width, Nat.le_succ_of_le (List.drop_sublist width rest).length_le⟩)
        | none => .error .malformed
    if c = 'u' then numbered 4
    else if c = 'U' then numbered 8
    else match simpleEscape? c with
      | some d => .ok (d, ⟨rest, Nat.le_succ _⟩)
      | none => .error .malformed

/-- A basic string on one line, after its opening quote. -/
def readBasic : Reader (List Char)
  | [] => .error .malformed
  | c :: rest =>
    if c = '"' then .ok ([], rest)
    else if c = '\\' then do
      let (d, ⟨rest, _⟩) ← readEscape rest
      let (tail, rest) ← readBasic rest
      return (d :: tail, rest)
    else if isControl c then .error .malformed
    else do
      let (tail, rest) ← readBasic rest
      return (c :: tail, rest)
termination_by cs => cs.length
decreasing_by all_goals (simp only [List.length_cons]; omega)

/-- A literal string on one line, after its opening quote. -/
def readLiteral : Reader (List Char)
  | [] => .error .malformed
  | c :: rest =>
    if c = '\'' then .ok ([], rest)
    else if isControl c then .error .malformed
    else do
      let (tail, rest) ← readLiteral rest
      return (c :: tail, rest)

/-- The rest after a line break, if the text starts with one. -/
def afterBreak? (cs : List Char) : Option { rest : List Char // rest.length < cs.length } :=
  match cs with
  | '\n' :: rest => some ⟨rest, Nat.lt_succ_self _⟩
  | '\r' :: '\n' :: rest => some ⟨rest, Nat.lt_succ_of_lt (Nat.lt_succ_self _)⟩
  | _ => none

def skipBlanks (cs : List Char) : List Char := cs.dropWhile isBlank

theorem length_skipBlanks (cs : List Char) : (skipBlanks cs).length ≤ cs.length :=
  (List.dropWhile_sublist _).length_le

/-- Passes over blanks and line breaks. -/
def skipSpace (cs : List Char) : List Char :=
  match afterBreak? (skipBlanks cs) with
  | some ⟨rest, _⟩ => skipSpace rest
  | none => skipBlanks cs
termination_by cs.length
decreasing_by
  have := length_skipBlanks cs
  omega

theorem length_skipSpace (cs : List Char) : (skipSpace cs).length ≤ cs.length := by
  fun_induction skipSpace cs with
  | case1 cs rest h _ ih =>
    have := length_skipBlanks cs
    omega
  | case2 cs _ => exact length_skipBlanks cs

/-- Whether three quotes start the text, which ends a string on many lines; up to two quotes
more belong to the string. -/
def closing? (quote : Char) : List Char → Option (List Char × List Char)
  | a :: b :: c :: rest =>
    if a = quote ∧ b = quote ∧ c = quote then
      let more := (rest.takeWhile (· = quote)).take 2
      some (more, rest.drop more.length)
    else none
  | _ => none

/-- A basic string on many lines. A backslash at the end of a line removes the space up to the
next text. -/
def readBasicLines (cs : List Char) : Except Fault (List Char × List Char) :=
  match closing? '"' cs with
  | some (quotes, rest) => .ok (quotes, rest)
  | none =>
    match cs with
    | [] => .error .malformed
    | c :: rest =>
      if c = '\\' then
        match afterBreak? (skipBlanks rest) with
        | some ⟨below, _⟩ => readBasicLines (skipSpace below)
        | none => do
          let (d, ⟨rest, _⟩) ← readEscape rest
          let (tail, rest) ← readBasicLines rest
          return (d :: tail, rest)
      else match afterBreak? (c :: rest) with
        | some ⟨below, _⟩ => do
          let (tail, rest) ← readBasicLines below
          return ('\n' :: tail, rest)
        | none =>
          if isControl c then .error .malformed
          else do
            let (tail, rest) ← readBasicLines rest
            return (c :: tail, rest)
termination_by cs.length
decreasing_by
  · have := length_skipBlanks rest
    have := length_skipSpace below
    simp only [List.length_cons]
    omega
  · simp only [List.length_cons]
    omega
  · assumption
  · simp

/-- A literal string on many lines. -/
def readLiteralLines (cs : List Char) : Except Fault (List Char × List Char) :=
  match closing? '\'' cs with
  | some (quotes, rest) => .ok (quotes, rest)
  | none =>
    match cs with
    | [] => .error .malformed
    | c :: rest =>
      match afterBreak? (c :: rest) with
      | some ⟨below, _⟩ => do
        let (tail, rest) ← readLiteralLines below
        return ('\n' :: tail, rest)
      | none =>
        if isControl c then .error .malformed
        else do
          let (tail, rest) ← readLiteralLines rest
          return (c :: tail, rest)
termination_by cs.length
decreasing_by
  · assumption
  · simp

/-- A line break right after the opening quotes of a string on many lines is no part of it. -/
def skipFirstBreak (cs : List Char) : List Char :=
  match afterBreak? cs with
  | some ⟨rest, _⟩ => rest
  | none => cs

/-- The two quotes of a string. -/
def isQuote (c : Char) : Bool := c = '"' || c = '\''

/-- A string in any of the four forms. -/
def readString : Reader String
  | '"' :: '"' :: '"' :: rest =>
    (readBasicLines (skipFirstBreak rest)).map fun (s, rest) => (String.ofList s, rest)
  | '"' :: rest => (readBasic rest).map fun (s, rest) => (String.ofList s, rest)
  | '\'' :: '\'' :: '\'' :: rest =>
    (readLiteralLines (skipFirstBreak rest)).map fun (s, rest) => (String.ofList s, rest)
  | '\'' :: rest => (readLiteral rest).map fun (s, rest) => (String.ofList s, rest)
  | _ => .error .malformed

/-- A character outside of quotes in a key. -/
def isBareKeyChar (c : Char) : Bool := c.isAlphanum || c = '_' || c = '-'

/-- One part of a key: bare, or a string on one line. -/
def readKeyPart : Reader String
  | '"' :: rest => (readBasic rest).map fun (s, rest) => (String.ofList s, rest)
  | '\'' :: rest => (readLiteral rest).map fun (s, rest) => (String.ofList s, rest)
  | cs =>
    let part := cs.takeWhile isBareKeyChar
    if part.isEmpty then .error .malformed
    else .ok (String.ofList part, cs.dropWhile isBareKeyChar)

/-- The length of the longest run of a character. -/
def longestRun (c : Char) (cs : List Char) : Nat :=
  let step (run : Nat × Nat) (d : Char) : Nat × Nat :=
    if d = c then (run.1 + 1, max run.2 (run.1 + 1)) else (0, run.2)
  (cs.foldl step (0, 0)).2

def upperHex (width n : Nat) : List Char :=
  Text.padLeft width ((Text.digitsInto 16 n []).map Char.toUpper)

/-- How a character other than a quote is written in a basic string. -/
def escapeBasic (c : Char) : List Char :=
  if c = '\x08' then ['\\', 'b']
  else if c = '\t' then ['\\', 't']
  else if c = '\n' then ['\\', 'n']
  else if c = '\x0c' then ['\\', 'f']
  else if c = '\r' then ['\\', 'r']
  else if c = '\\' then ['\\', '\\']
  else if isControl c then '\\' :: 'u' :: upperHex 4 c.toNat
  else [c]

/-- The content of a basic string. At most `quotes` quotes in a row stay as they are, of which
`seen` were written just before; line breaks stay if `lines`. -/
def basicContent (lines : Bool) (quotes seen : Nat) : List Char → List Char
  | [] => []
  | c :: rest =>
    if c = '"' then
      if quotes ≤ seen then '\\' :: '"' :: basicContent lines quotes 0 rest
      else '"' :: basicContent lines quotes (seen + 1) rest
    else if c = '\n' && lines then '\n' :: basicContent lines quotes 0 rest
    else escapeBasic c ++ basicContent lines quotes 0 rest

/-- What decides about the form of a string. -/
structure Shape where
  control : Bool
  backslash : Bool
  breaks : Bool
  doubleQuotes : Nat
  singleQuotes : Nat

/-- Quotes in a row are counted in one byte. -/
def Shape.isCountable (s : Shape) : Bool := s.doubleQuotes < 256 && s.singleQuotes < 256

/-- The line break is counted on its own, apart from other control characters. -/
def Shape.of (cs : List Char) : Shape where
  control := cs.any fun c => isControl c && c ≠ '\n'
  backslash := cs.contains '\\'
  breaks := cs.contains '\n'
  doubleQuotes := longestRun '"' cs
  singleQuotes := longestRun '\'' cs

def Shape.asBasic (s : Shape) : Bool :=
  !s.control && !s.backslash && !s.breaks && s.doubleQuotes = 0

def Shape.asLiteral (s : Shape) : Bool := !s.control && !s.breaks && s.singleQuotes = 0

def Shape.asBasicLines (s : Shape) : Bool := !s.control && !s.backslash && s.doubleQuotes ≤ 2

def Shape.asLiteralLines (s : Shape) : Bool := !s.control && s.singleQuotes ≤ 2

/-- Three quotes around a content; a content with line breaks starts on a line of its own. -/
def lines (quote : Char) (breaks : Bool) (content : List Char) : List Char :=
  List.replicate 3 quote ++ (if breaks then ['\n'] else []) ++ content ++ List.replicate 3 quote

def writeBasic (cs : List Char) : List Char := '"' :: basicContent false 0 0 cs ++ ['"']

def writeLiteral (cs : List Char) : List Char := '\'' :: cs ++ ['\'']

def writeString (cs : List Char) : List Char :=
  let s := Shape.of cs
  if s.asBasic then writeBasic cs
  else if s.asLiteral then writeLiteral cs
  else if s.asBasicLines then lines '"' s.breaks (basicContent true 2 0 cs)
  else if s.asLiteralLines then lines '\'' s.breaks cs
  else if s.breaks then lines '"' true (basicContent true 2 0 cs)
  else writeBasic cs

/-- Keys stay on one line. -/
def writeKey (cs : List Char) : List Char :=
  let s := Shape.of cs
  if !cs.isEmpty && cs.all isBareKeyChar then cs
  else if s.asBasic then writeBasic cs
  else if s.asLiteral then writeLiteral cs
  else writeBasic cs

end Logbook.Toml
