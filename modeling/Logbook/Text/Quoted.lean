import Logbook.Text.Number
import Logbook.Text.Printable
import Logbook.Bytes

/-!
Values shown inside diagnostics: characters, texts and byte strings between quotes, with
everything that would not be seen written as an escape.
-/
namespace Logbook.Text

/-- One character between the given quotes; only that quote is escaped. -/
def escapeChar (quote c : Char) : String :=
  if c = '\x00' then "\\0"
  else if c = '\t' then "\\t"
  else if c = '\r' then "\\r"
  else if c = '\n' then "\\n"
  else if c = '\\' then "\\\\"
  else if c = quote then String.ofList ['\\', quote]
  else if isShown c then c.toString
  else "\\u\x7b" ++ hex c.toNat ++ "\x7d"

def quotedChar (c : Char) : String :=
  "'" ++ escapeChar '\'' c ++ "'"

def quoted (s : String) : String :=
  "\"" ++ String.join (s.toList.map (escapeChar '"')) ++ "\""

def escapeByte (b : UInt8) : String :=
  if b = 10 then "\\n"
  else if b = 13 then "\\r"
  else if b = 9 then "\\t"
  else if b = 92 then "\\\\"
  else if b = 34 then "\\\""
  else if b = 0 then "\\0"
  else if 0x20 ≤ b && b < 0x7f then (Char.ofNat b.toNat).toString
  else "\\x" ++ String.ofList (padLeft 2 (digitsInto 16 b.toNat []))

/-- Bytes between quotes, the printable ASCII ones as themselves. -/
def quotedBytes (bs : Bytes) : String :=
  "b\"" ++ String.join (bs.map escapeByte) ++ "\""

end Logbook.Text
