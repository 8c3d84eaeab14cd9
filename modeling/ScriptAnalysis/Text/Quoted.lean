import ScriptAnalysis.Text.Hexadecimal
import ScriptAnalysis.Text.Unprintable

/-!
# Quoted texts

The quoted form of a text inside a message: double quotes around it, a backslash
before a quote or a backslash, short escapes for the common controls, and the code
point in braces for every other character that has no shape of its own.
-/

namespace ScriptAnalysis.Text

/-- How one character is written between the quotes. -/
def quotedChar (c : Char) : String :=
  if c = '\x00' then "\\0"
  else if c = '\t' then "\\t"
  else if c = '\r' then "\\r"
  else if c = '\n' then "\\n"
  else if c = '\x22' then "\\\""
  else if c = '\\' then "\\\\"
  else if c.toNat < 0x20 || c.toNat == 0x7F || (0x80 ≤ c.toNat && isUnprintable c) then
    "\\u\x7b" ++ hexadecimal c.toNat ++ "\x7d"
  else c.toString

/-- The text between double quotes, every character in its written form. -/
def quoted (text : String) : String :=
  "\"" ++ String.join (text.toList.map quotedChar) ++ "\""

end ScriptAnalysis.Text
