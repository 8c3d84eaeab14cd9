import ScriptAnalysis.Text.Blank

/-!
# Modes of a pattern

How the characters of a pattern are understood, which switches change that, and what a
pattern may hold in each mode. Patterns are used without tables of Unicode: classes of
letters and digits, the ends of words, and letters regardless of case are only known for
bytes. In byte mode, on the other hand, nothing may stand for a byte from 0x80 on, since
such a pattern could stop in the middle of a character.
-/

namespace ScriptAnalysis.Pattern

/-- How the characters of a pattern are understood. -/
structure Mode where
  /-- Capital and small letters count as the same. -/
  foldsCase : Bool
  /-- A pattern is about characters and not about bytes. -/
  unicode : Bool
  /-- White space and comments carry no meaning. -/
  spaced : Bool
  deriving DecidableEq, Repr

namespace Mode

/-- The mode in which every pattern begins. -/
def standard : Mode :=
  ⟨false, true, false⟩

/-- The letters of all switches. -/
def switches : List Char :=
  ['i', 'm', 's', 'U', 'u', 'R', 'x']

/-- Turn a switch on or off. The ones that are not named here change what a pattern
matches but not what it may hold. -/
def set (on : Bool) (mode : Mode) : Char → Mode
  | 'i' => { mode with foldsCase := on }
  | 'u' => { mode with unicode := on }
  | 'x' => { mode with spaced := on }
  | _ => mode

/-- Turn on the switches before the minus sign and turn off the ones after it. No
character may be repeated, and a minus sign needs a switch after it. -/
def switched? (mode : Mode) (letters : List Char) : Option Mode :=
  let good := letters.all fun c => c == '-' || switches.contains c
  if !good || !decide letters.Nodup || letters.getLast? == some '-' then none
  else
    let on := letters.takeWhile (· ≠ '-')
    let off := letters.dropWhile (· ≠ '-')
    some (off.foldl (set false) (on.foldl (set true) mode))

/-- What follows white space and comments. A comment begins with a number sign and ends
with its line. -/
def skipBlanks (inComment : Bool) : List Char → List Char
  | [] => []
  | c :: rest =>
      if inComment then skipBlanks (c != '\n') rest
      else if Text.isBlank c then skipBlanks false rest
      else if c == '#' then skipBlanks true rest
      else c :: rest

/-- What follows the characters without a meaning. -/
def skip (mode : Mode) (chars : List Char) : List Char :=
  if mode.spaced then skipBlanks false chars else chars

/-- The next character, white space and the sign of a comment passed over. -/
def ahead? (mode : Mode) (chars : List Char) : Option Char :=
  if mode.spaced then
    match chars.dropWhile Text.isBlank with
    | '#' :: rest => (rest.dropWhile Text.isBlank).head?
    | rest => rest.head?
  else chars.head?

/-- Whether a character may stand for itself; `byte` says that it was given as the value
of a byte. -/
def admitsChar (mode : Mode) (c : Char) (byte : Bool) : Bool :=
  if mode.unicode then !mode.foldsCase else !byte || c.toNat < 0x80

/-- Whether a character may be a member of a class, or the end of a range in it. -/
def admitsMember (mode : Mode) (c : Char) : Bool :=
  if mode.unicode then !mode.foldsCase else c.toNat < 0x80

/-- Whether a class with a name may be a member of a class. -/
def admitsNamed (mode : Mode) (negated : Bool) : Bool :=
  if mode.unicode then !mode.foldsCase else !negated

/-- Whether the classes of digits, white space and word characters may be used. -/
def admitsKind (mode : Mode) (negated : Bool) : Bool :=
  !mode.unicode && !negated

end Mode

end ScriptAnalysis.Pattern
