import ScriptAnalysis.Log.Pattern.CharClass
import ScriptAnalysis.Text.Alphanumeric

/-!
# Patterns

A pattern is a regular expression with which a log filter may ask for the value of a
field. Such a filter only fits records inside spans, and there are none, so that no text
is ever compared with a pattern. What counts is whether a text is a pattern at all: it
is read from left to right, with a stack of open groups.
-/

namespace ScriptAnalysis.Pattern

/-- A group that is not yet closed, or the whole pattern. -/
structure Group where
  mode : Mode
  /-- The depth of each branch before the current one. -/
  branches : List Nat
  /-- The depth of each part of the current branch, the last one first. A part that only
  changes the mode has none. -/
  parts : List (Option Nat)
  deriving DecidableEq, Repr

namespace Group

/-- A group with nothing in it. -/
def empty (mode : Mode) : Group :=
  ⟨mode, [], []⟩

/-- The depth of the current branch. -/
def branchDepth (group : Group) : Nat :=
  depthOfAll (group.parts.map fun part => part.getD 0)

/-- The depth of what has been read. -/
def depth (group : Group) : Nat :=
  depthOfAll (group.branchDepth :: group.branches)

/-- The group with one more part. -/
def push (group : Group) (depth : Nat) : Group :=
  { group with parts := some depth :: group.parts }

/-- The group with another mode from here on. -/
def switch (group : Group) (mode : Mode) : Group :=
  { group with mode := mode, parts := none :: group.parts }

/-- The group with a new branch. -/
def branch (group : Group) : Group :=
  { group with branches := group.branchDepth :: group.branches, parts := [] }

/-- The group with its last part repeated. There has to be one, and it may not be a change
of the mode. -/
def repeated? (group : Group) : Option Group :=
  match group.parts with
  | some depth :: others => some { group with parts := some (depth + 1) :: others }
  | _ => none

end Group

/-- What has been read of a pattern. -/
structure State where
  group : Group
  /-- The groups around it, the innermost first. -/
  outer : List Group
  /-- The names of groups so far. -/
  names : List (List Char)
  deriving DecidableEq, Repr

namespace State

/-- Before anything has been read. -/
def start : State :=
  ⟨.empty .standard, [], []⟩

/-- One more part of the current group. -/
def push (state : State) (depth : Nat) : State :=
  { state with group := state.group.push depth }

/-- Enter a group. -/
def enter (state : State) (mode : Mode) : State :=
  { state with group := .empty mode, outer := state.group :: state.outer }

/-- Whether a group may have the name. It begins with a letter or an underscore, and
after that has letters, numbers, underscores, dots and brackets. -/
def isName (name : List Char) : Bool :=
  let later := fun c =>
    c == '_' || c == '.' || c == '[' || c == ']' || Text.isAlphanumeric c
  match name with
  | [] => false
  | first :: rest => (first == '_' || Text.isAlphabetic first) && rest.all later

/-- Read the name of a group up to the mark that closes it. No two groups have the same
name. -/
def enterNamed (state : State) (chars : List Char) : Option (State × List Char) :=
  let name := chars.takeWhile (· ≠ '>')
  match chars.dropWhile (· ≠ '>') with
  | _ :: rest =>
      if isName name && !state.names.contains name then
        some ({ state.enter state.group.mode with names := name :: state.names }, rest)
      else none
  | [] => none

/-- Read switches, for a group of their own or for what remains of the current one. -/
def enterSwitched (state : State) (chars : List Char) : Option (State × List Char) :=
  let letters := chars.takeWhile fun c => c != ':' && c != ')'
  match chars.dropWhile fun c => c != ':' && c != ')', state.group.mode.switched? letters with
  | ':' :: rest, some mode => some (state.enter mode, rest)
  | ')' :: rest, some mode =>
      if letters.isEmpty then none
      else some ({ state with group := state.group.switch mode }, rest)
  | _, _ => none

/-- Read the beginning of a group, the parenthesis being read. Nothing can be demanded of
the text around a match. -/
def readOpening (state : State) (chars : List Char) : Option (State × List Char) :=
  match state.group.mode.skip chars with
  | '?' :: '=' :: _ | '?' :: '!' :: _ | '?' :: '<' :: '=' :: _ | '?' :: '<' :: '!' :: _ => none
  | '?' :: 'P' :: '<' :: rest => state.enterNamed rest
  | '?' :: '<' :: rest => state.enterNamed rest
  | '?' :: rest => state.enterSwitched rest
  | rest => some (state.enter state.group.mode, rest)

/-- Leave a group. -/
def leave? (state : State) : Option State :=
  match state.outer with
  | around :: others =>
      some { state with group := around.push (state.group.depth + 1), outer := others }
  | [] => none

/-- Read one part of a pattern that begins with `c`. An opening brace is never closed,
since the brace that would close it already ends the field. -/
def step (state : State) (c : Char) (rest : List Char) : Option (State × List Char) :=
  let mode := state.group.mode
  if c == '(' then state.readOpening rest
  else if c == ')' then state.leave?.map fun left => (left, rest)
  else if c == '|' then some ({ state with group := state.group.branch }, rest)
  else if c == '[' then
    (CharClass.read mode rest).map fun (depth, after) => (state.push depth, after)
  else if c == '?' || c == '*' || c == '+' then
    let after := if rest.head? == some '?' then rest.drop 1 else rest
    state.group.repeated?.map fun group => ({ state with group := group }, after)
  else if c == '\x7b' then none
  else if c == '.' then if mode.unicode then some (state.push 0, rest) else none
  else if c == '^' || c == '$' then some (state.push 0, rest)
  else
    match CharClass.readAtom mode (c :: rest) with
    | some (atom, after) => if atom.isKnown mode then some (state.push 0, after) else none
    | none => none

/-- Read all parts of a pattern. -/
def readAll : Nat → State → List Char → Option State
  | 0, _, _ => none
  | fuel + 1, state, chars =>
      match state.group.mode.skip chars with
      | [] => some state
      | c :: rest =>
          match state.step c rest with
          | some (next, after) => readAll fuel next after
          | none => none

end State

/-- The greatest depth of a pattern. -/
def greatestDepth : Nat := 250

/-- Whether the characters are a pattern. -/
def isPattern (chars : List Char) : Bool :=
  match State.readAll (chars.length + 1) .start chars with
  | some state => state.outer.isEmpty && state.group.depth ≤ greatestDepth
  | none => false

end ScriptAnalysis.Pattern
