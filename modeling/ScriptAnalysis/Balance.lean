import ScriptAnalysis.Token

/-!
# Balance of brackets

`Balance.check` walks over the tokens of a script with the stack of brackets that are
still open, the innermost first. A closing bracket closes the innermost open bracket of
its own pair, and everything opened since is reported there; one without any partner
is reported and passed over. Literals and comments without an end are reported too.
-/

namespace ScriptAnalysis

/-- A pair of brackets. -/
inductive Bracket where
  | round
  | square
  | curly
  deriving DecidableEq, Repr

namespace Bracket

/-- The character that opens the pair. -/
def opener : Bracket → Char
  | .round => '('
  | .square => '['
  | .curly => '\x7b'

/-- The character that closes the pair. -/
def closer : Bracket → Char
  | .round => ')'
  | .square => ']'
  | .curly => '\x7d'

/-- The pair that a character opens. -/
def ofOpener? (c : Char) : Option Bracket :=
  if c = '(' then some .round
  else if c = '[' then some .square
  else if c = '\x7b' then some .curly
  else none

/-- The pair that a character closes. -/
def ofCloser? (c : Char) : Option Bracket :=
  if c = ')' then some .round
  else if c = ']' then some .square
  else if c = '\x7d' then some .curly
  else none

@[simp]
theorem ofOpener?_opener (bracket : Bracket) : ofOpener? bracket.opener = some bracket := by
  cases bracket <;> rfl

@[simp]
theorem ofCloser?_closer (bracket : Bracket) : ofCloser? bracket.closer = some bracket := by
  cases bracket <;> rfl

end Bracket

/-- What can be out of balance. -/
inductive Imbalance where
  /-- A bracket is open where it had to be closed. -/
  | unclosed (bracket : Bracket)
  /-- A bracket closes that nothing opened. -/
  | stray
  | openString
  | openTemplate
  | openComment
  deriving DecidableEq, Repr

namespace Imbalance

/-- The number of the diagnostic. -/
def code : Imbalance → UInt32
  | .unclosed _ => 1005
  | .stray => 1128
  | .openString => 1002
  | .openTemplate => 1160
  | .openComment => 1010

/-- The wording of the diagnostic. -/
def message : Imbalance → String
  | .unclosed bracket => "'" ++ bracket.closer.toString ++ "' expected."
  | .stray => "Declaration or statement expected."
  | .openString => "Unterminated string literal."
  | .openTemplate => "Unterminated template literal."
  | .openComment => "'*/' expected."

end Imbalance

namespace Balance

/-- Something out of balance at a byte offset. -/
structure Finding where
  imbalance : Imbalance
  offset : Nat
  deriving DecidableEq, Repr

/-- Report brackets that are still open, the innermost first. -/
def unclosedAt (offset : Nat) (brackets : List Bracket) : List Finding :=
  brackets.map fun bracket => ⟨.unclosed bracket, offset⟩

/-- Close a bracket at an offset: what is reported, and the brackets still open. -/
def close (bracket : Bracket) (offset : Nat) (opened : List Bracket) :
    List Finding × List Bracket :=
  match opened.dropWhile (· ≠ bracket) with
  | [] => ([⟨.stray, offset⟩], opened)
  | _ :: outer => (unclosedAt offset (opened.takeWhile (· ≠ bracket)), outer)

/-- What one token reports in a script of `size` bytes, and the brackets open after it. -/
def step (size : Nat) (token : Token) (opened : List Bracket) : List Finding × List Bracket :=
  match token.kind with
  | .punctuation c =>
      match Bracket.ofOpener? c, Bracket.ofCloser? c with
      | some bracket, _ => ([], bracket :: opened)
      | none, some bracket => close bracket token.start opened
      | none, none => ([], opened)
  | .string false => ([⟨.openString, token.start⟩], opened)
  | .template false => ([⟨.openTemplate, token.start⟩], opened)
  | .openComment => ([⟨.openComment, size⟩], opened)
  | _ => ([], opened)

/-- What the remaining tokens of a script of `size` bytes report. Brackets left open
are reported at its end. -/
def walk (size : Nat) (opened : List Bracket) : List Token → List Finding
  | [] => unclosedAt size opened
  | token :: rest =>
      let (found, next) := step size token opened
      found ++ walk size next rest

/-- Everything out of balance in a script, in the order of the script. -/
def check (source : String) : List Finding :=
  walk (Text.byteLength source.toList) [] (tokenize source)

end Balance

end ScriptAnalysis
