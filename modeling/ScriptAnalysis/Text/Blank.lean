/-!
# White space

Two classes of white space and the trims that use them: the full class `isBlank`, with
every character that has the Unicode property `White_Space`, and `isAsciiBlank`, the
five characters that separate tokens of a script.
-/

namespace ScriptAnalysis.Text

/-- The characters with the Unicode property `White_Space`. -/
def isBlank (c : Char) : Bool :=
  let code := c.toNat
  (9 ≤ code && code ≤ 13) || code == 0x20 || code == 0x85 || code == 0xA0 ||
    code == 0x1680 || (0x2000 ≤ code && code ≤ 0x200A) || code == 0x2028 ||
    code == 0x2029 || code == 0x202F || code == 0x205F || code == 0x3000

/-- Space, tab, line feed, form feed and carriage return. -/
def isAsciiBlank (c : Char) : Bool :=
  c == ' ' || c == '\t' || c == '\n' || c == '\x0c' || c == '\r'

/-- The characters without the longest suffix in the class `drop`. -/
def trimEnd (drop : Char → Bool) (chars : List Char) : List Char :=
  (chars.reverse.dropWhile drop).reverse

/-- Whether nothing but white space is in the text. -/
def allBlank (text : String) : Bool :=
  text.toList.all isBlank

/-- The text without the white space at its end. -/
def trimEndBlank (text : String) : String :=
  String.ofList (trimEnd isBlank text.toList)

end ScriptAnalysis.Text
