import ScriptAnalysis.Log.Pattern.Mode
import ScriptAnalysis.Text.Hexadecimal

/-!
# Escapes of a pattern

What a backslash and the characters after it stand for.
-/

namespace ScriptAnalysis.Pattern

/-- The least parts of a pattern. -/
inductive Atom where
  /-- A character; `byte` says that it was given as the value of a byte. -/
  | char (c : Char) (byte : Bool)
  /-- One of the classes of digits, white space and word characters. -/
  | kind (negated : Bool)
  /-- A place between two characters, such as the end of a line or of a word. -/
  | place (ofWord : Bool)
  deriving DecidableEq, Repr

namespace Atom

/-- The letters that stand for controls. -/
def controls : List (Char × Char) :=
  [('a', '\x07'), ('f', '\x0c'), ('t', '\t'), ('n', '\n'), ('r', '\r'), ('v', '\x0b')]

/-- Read `count` more hexadecimal digits of a value, and pass over what carries no
meaning after each of them. -/
def readDigits (mode : Mode) : Nat → Nat → List Char → Option (Nat × List Char)
  | 0, value, chars => some (value, chars)
  | _ + 1, _, [] => none
  | count + 1, value, c :: rest =>
      match Text.hexValue? c with
      | some digit => readDigits mode count (16 * value + digit) (mode.skip rest)
      | none => none

/-- Read a character that is given by `count` hexadecimal digits. Two digits give a
byte. -/
def readCode (mode : Mode) (count : Nat) (chars : List Char) : Option (Atom × List Char) :=
  match readDigits mode count 0 (mode.skip chars) with
  | some (value, rest) =>
      if value.isValidChar then some (.char (Char.ofNat value) (count == 2), rest) else none
  | none => none

/-- Read what follows a backslash. A letter or digit without a meaning of its own may not
be escaped, and every other ASCII character stands for itself. The end of a word may not
be followed by an opening brace. -/
def readEscape (mode : Mode) : List Char → Option (Atom × List Char)
  | [] => none
  | c :: rest =>
      if c == 'x' then readCode mode 2 rest
      else if c == 'u' then readCode mode 4 rest
      else if c == 'U' then readCode mode 8 rest
      else if c == 'd' || c == 's' || c == 'w' then some (.kind false, rest)
      else if c == 'D' || c == 'S' || c == 'W' then some (.kind true, rest)
      else if c == 'A' || c == 'z' then some (.place false, rest)
      else if c == 'b' && rest.head? == some '\x7b' then none
      else if c == 'b' || c == 'B' || c == '<' || c == '>' then some (.place true, rest)
      else
        match controls.find? fun entry => entry.1 == c with
        | some (_, control) => some (.char control false, rest)
        | none =>
            if c.toNat < 0x80 && !c.isAlphanum then some (.char c false, rest) else none

/-- Whether the mode knows what the atom stands for. -/
def isKnown (mode : Mode) : Atom → Bool
  | .char c byte => mode.admitsChar c byte
  | .kind negated => mode.admitsKind negated
  | .place ofWord => !(ofWord && mode.unicode)

/-- Whether the atom may be a member of a class. -/
def isMember (mode : Mode) : Atom → Bool
  | .char c _ => mode.admitsMember c
  | .kind negated => mode.admitsKind negated
  | .place _ => false

end Atom

end ScriptAnalysis.Pattern
