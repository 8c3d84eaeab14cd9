import ScriptAnalysis.Log.Pattern.Escape

/-!
# Classes of a pattern

A class stands between brackets: characters, ranges, classes with a name such as
`[:alpha:]`, further classes, and operators between them. The reader gives the depth of
what it read, that is, how many parts lie inside one another.
-/

namespace ScriptAnalysis.Pattern

/-- The depth of parts that stand side by side. Several of them are one level deeper than
one alone. -/
def depthOfAll : List Nat → Nat
  | [] => 0
  | [depth] => depth
  | depths => depths.foldl max 0 + 1

namespace CharClass

/-- The names that a class may have. -/
def names : List String :=
  ["alnum", "alpha", "ascii", "blank", "cntrl", "digit", "graph", "lower", "print", "punct",
    "space", "upper", "word", "xdigit"]

/-- Read a class with a name, the opening bracket being read: whether it is negated. -/
def readNamed : List Char → Option (Bool × List Char)
  | ':' :: rest =>
      let (negated, body) :=
        match rest with
        | '^' :: inner => (true, inner)
        | inner => (false, inner)
      match body.dropWhile (· ≠ ':') with
      | ':' :: ']' :: after =>
          if names.contains (String.ofList (body.takeWhile (· ≠ ':'))) then
            some (negated, after)
          else none
      | _ => none
  | _ => none

/-- A class that is not yet closed. -/
structure Open where
  /-- Only hyphens have been read so far, which stand for themselves. -/
  beginning : Bool
  /-- The depth of what stands before the last operator. -/
  left : Option Nat
  /-- The depth of each member after it. -/
  members : List Nat
  deriving DecidableEq, Repr

namespace Open

/-- The depth of what has been read. -/
def depth (opened : Open) : Nat :=
  match opened.left with
  | none => depthOfAll opened.members
  | some left => max left (depthOfAll opened.members) + 1

/-- The class with one more member. -/
def push (opened : Open) (depth : Nat) : Open :=
  { opened with members := depth :: opened.members, beginning := false }

/-- The class after an operator. -/
def operate (opened : Open) : Open :=
  ⟨false, some opened.depth, []⟩

end Open

/-- Read what follows an opening bracket. Bytes have no complement. -/
def readOpening (mode : Mode) (chars : List Char) : Option (Open × List Char) :=
  match mode.skip chars with
  | '^' :: rest => if mode.unicode then some (⟨true, none, []⟩, rest) else none
  | rest => some (⟨true, none, []⟩, rest)

/-- Read an atom. -/
def readAtom (mode : Mode) : List Char → Option (Atom × List Char)
  | [] => none
  | '\\' :: rest => Atom.readEscape mode rest
  | c :: rest => some (.char c false, rest)

/-- Read a member: one atom, or two characters in ascending order with a hyphen between
them. A hyphen before another one or before the closing bracket makes no range. -/
def readMember (mode : Mode) (chars : List Char) : Option (List Char) :=
  match readAtom mode chars with
  | none => none
  | some (first, rest) =>
      let alone := if first.isMember mode then some (mode.skip rest) else none
      match mode.skip rest with
      | '-' :: after =>
          if mode.ahead? after == some ']' || mode.ahead? after == some '-' then alone
          else
            match first, readAtom mode (mode.skip after) with
            | .char low _, some (.char high _, rest) =>
                if mode.admitsMember low && mode.admitsMember high && low ≤ high then some rest
                else none
            | _, _ => none
      | _ => alone

/-- Read up to the bracket that closes the outermost class: the depth of the class. -/
def readFrom (mode : Mode) : Nat → Open → List Open → List Char → Option (Nat × List Char)
  | 0, _, _, _ => none
  | fuel + 1, opened, outer, chars =>
      let chars := mode.skip chars
      let itself := fun beginning c rest =>
        if mode.admitsMember c then
          readFrom mode fuel { opened.push 0 with beginning := beginning } outer rest
        else none
      match chars with
      | [] => none
      | '[' :: rest =>
          match readNamed rest with
          | some (negated, after) =>
              if mode.admitsNamed negated then readFrom mode fuel (opened.push 0) outer after
              else none
          | none =>
              match readOpening mode rest with
              | some (inner, after) =>
                  readFrom mode fuel inner ({ opened with beginning := false } :: outer) after
              | none => none
      | ']' :: rest =>
          if opened.beginning && opened.members.isEmpty then itself false ']' rest
          else
            match outer with
            | [] => some (opened.depth + 1, rest)
            | around :: others =>
                readFrom mode fuel (around.push (opened.depth + 1)) others rest
      | c :: rest =>
          if c == '-' && opened.beginning then itself true c rest
          else if (c == '&' || c == '-' || c == '~') && rest.head? == some c then
            readFrom mode fuel opened.operate outer (rest.drop 1)
          else
            match readMember mode chars with
            | some after => readFrom mode fuel (opened.push 0) outer after
            | none => none

/-- Read a class, the opening bracket being read. -/
def read (mode : Mode) (chars : List Char) : Option (Nat × List Char) :=
  match readOpening mode chars with
  | some (opened, rest) => readFrom mode (rest.length + 1) opened [] rest
  | none => none

end CharClass

end ScriptAnalysis.Pattern
