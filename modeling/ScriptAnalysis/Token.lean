import ScriptAnalysis.Text.Blank
import ScriptAnalysis.Text.Offsets

/-!
# Tokens of a script

A script is cut into pieces: white space, comments, and lexemes. `Piece.ofChars` loses
nothing, and the tokens are the lexemes with their byte ranges. Regular expressions and
substitutions inside templates are not told apart; the tokens serve checks by line
and by bracket.
-/

namespace ScriptAnalysis

/-- What a token is. -/
inductive TokenKind where
  /-- A name or keyword; every character beyond ASCII belongs to names. -/
  | identifier
  | number
  /-- A text between single or double quotes, which ends with its line at the latest. -/
  | string (terminated : Bool)
  /-- A text between backquotes, over any number of lines. -/
  | template (terminated : Bool)
  /-- A block comment that runs to the end of the script. -/
  | openComment
  /-- Any other character. -/
  | punctuation (char : Char)
  deriving DecidableEq, Repr

/-- A lexeme with the bytes that it takes. -/
structure Token where
  kind : TokenKind
  /-- The offset of the first byte. -/
  start : Nat
  /-- The offset after the last byte. -/
  stop : Nat
  lexeme : List Char
  deriving DecidableEq, Repr

/-- A stretch of a script. -/
inductive Piece where
  | blank (char : Char)
  /-- A comment from `//` to the end of its line; the body follows the slashes. -/
  | lineComment (body : List Char)
  /-- A comment from `/*` to the next `*/`; the body stands between them. -/
  | blockComment (body : List Char)
  | lexeme (kind : TokenKind) (chars : List Char)
  deriving DecidableEq, Repr

namespace Piece

/-- The characters of the piece. -/
def chars : Piece → List Char
  | .blank char => [char]
  | .lineComment body => '/' :: '/' :: body
  | .blockComment body => '/' :: '*' :: body ++ ['*', '/']
  | .lexeme _ chars => chars

/-- A letter, an underscore, a dollar sign, or a character beyond ASCII. -/
def startsIdentifier (c : Char) : Bool :=
  c.isAlpha || c == '_' || c == '$' || 0x80 ≤ c.toNat

/-- What may follow inside a name. -/
def continuesIdentifier (c : Char) : Bool :=
  startsIdentifier c || c.isDigit

/-- What may follow inside a number. -/
def continuesNumber (c : Char) : Bool :=
  c.isAlphanum || c == '.' || c == '_'

/-- The backquote, which delimits templates. -/
def backquote : Char := '\x60'

/-- The part of a literal after its opening quote, whether it is closed, and what
follows. A backslash takes the next character along. Without `multiline` the
literal ends before a line feed. -/
def literalBody (quote : Char) (multiline : Bool) : List Char → Bool × List Char × List Char
  | [] => (false, [], [])
  | ['\\'] => (false, ['\\'], [])
  | '\\' :: escaped :: rest =>
      let (terminated, taken, after) := literalBody quote multiline rest
      (terminated, '\\' :: escaped :: taken, after)
  | c :: rest =>
      if c = '\n' && !multiline then (false, [], c :: rest)
      else if c = quote then (true, [c], rest)
      else
        let (terminated, taken, after) := literalBody quote multiline rest
        (terminated, c :: taken, after)

/-- The body of a block comment and what follows its end, if it has an end. -/
def commentBody : List Char → Option (List Char × List Char)
  | [] => none
  | '*' :: '/' :: rest => some ([], rest)
  | c :: rest => (commentBody rest).map fun (body, after) => (c :: body, after)

/-- The first piece of a script that begins with the character `c`, and what follows. -/
def first (c : Char) (rest : List Char) : Piece × List Char :=
  if Text.isAsciiBlank c then (.blank c, rest)
  else if c = '/' && rest.head? = some '/' then
    let body := rest.tail
    (.lineComment (body.takeWhile (· ≠ '\n')), body.dropWhile (· ≠ '\n'))
  else if c = '/' && rest.head? = some '*' then
    match commentBody rest.tail with
    | some (body, after) => (.blockComment body, after)
    | none => (.lexeme .openComment (c :: rest), [])
  else if startsIdentifier c then
    (.lexeme .identifier (c :: rest.takeWhile continuesIdentifier),
      rest.dropWhile continuesIdentifier)
  else if c.isDigit then
    (.lexeme .number (c :: rest.takeWhile continuesNumber), rest.dropWhile continuesNumber)
  else if c = '\x27' || c = '\x22' then
    let (terminated, taken, after) := literalBody c false rest
    (.lexeme (.string terminated) (c :: taken), after)
  else if c = backquote then
    let (terminated, taken, after) := literalBody c true rest
    (.lexeme (.template terminated) (c :: taken), after)
  else (.lexeme (.punctuation c) [c], rest)

/-- A literal and what follows it are the characters after the opening quote. -/
theorem literalBody_append (quote : Char) (multiline : Bool) (chars : List Char) :
    (literalBody quote multiline chars).2.1 ++ (literalBody quote multiline chars).2.2 =
      chars := by
  fun_induction literalBody quote multiline chars <;> simp_all

/-- A comment and what follows it are the characters after the opening marks. -/
theorem commentBody_append {chars body after : List Char}
    (found : commentBody chars = some (body, after)) : body ++ '*' :: '/' :: after = chars := by
  fun_induction commentBody chars generalizing body after with
  | case1 => simp at found
  | case2 rest => simp_all
  | case3 c rest _ inductionHypothesis =>
      simp only [Option.map_eq_some_iff, Prod.mk.injEq, Prod.exists] at found
      obtain ⟨inner, _, equal, rfl, rfl⟩ := found
      simp [← inductionHypothesis equal]

/-- The first piece and what follows it are the whole script. -/
theorem first_append (c : Char) (rest : List Char) :
    (first c rest).1.chars ++ (first c rest).2 = c :: rest := by
  unfold first
  split
  · rfl
  · split
    · next slashes =>
        simp only [Bool.and_eq_true, decide_eq_true_eq] at slashes
        obtain ⟨rfl, slash⟩ := slashes
        cases rest with
        | nil => simp at slash
        | cons head tail =>
            simp only [List.head?_cons, Option.some.injEq] at slash
            subst slash
            simp [chars, List.takeWhile_append_dropWhile]
    · split
      · next marks =>
          simp only [Bool.and_eq_true, decide_eq_true_eq] at marks
          obtain ⟨rfl, star⟩ := marks
          cases rest with
          | nil => simp at star
          | cons head tail =>
              simp only [List.head?_cons, Option.some.injEq] at star
              subst star
              split
              · next body after found =>
                  have equal := commentBody_append found
                  simp only [List.tail_cons] at equal
                  simp [chars, ← equal]
              · simp [chars]
      · split
        · simp [chars, List.takeWhile_append_dropWhile]
        · split
          · simp [chars, List.takeWhile_append_dropWhile]
          · split
            · simp [chars, literalBody_append]
            · split
              · simp [chars, literalBody_append]
              · simp [chars]

/-- No piece is empty. -/
theorem first_chars_ne_nil (c : Char) (rest : List Char) : (first c rest).1.chars ≠ [] := by
  unfold first
  repeat' split
  all_goals simp [chars]

/-- What follows the first piece is shorter than the script. -/
theorem length_first_snd (c : Char) (rest : List Char) :
    (first c rest).2.length < (c :: rest).length := by
  have whole := congrArg List.length (first_append c rest)
  have some := List.length_pos_iff.mpr (first_chars_ne_nil c rest)
  simp only [List.length_append] at whole
  omega

/-- All pieces of a script. -/
def ofChars : List Char → List Piece
  | [] => []
  | c :: rest => (first c rest).1 :: ofChars (first c rest).2
termination_by chars => chars.length
decreasing_by exact length_first_snd c rest

/-- The pieces hold all characters in their order. -/
theorem flatMap_chars_ofChars (source : List Char) :
    (ofChars source).flatMap chars = source := by
  fun_induction ofChars source with
  | case1 => rfl
  | case2 c rest inductionHypothesis =>
      rw [List.flatMap_cons, inductionHypothesis, first_append]

/-- The tokens among the pieces, where the first piece begins at byte `start`. -/
def tokens (start : Nat) : List Piece → List Token
  | [] => []
  | piece :: rest =>
      let stop := start + Text.byteLength piece.chars
      match piece with
      | .lexeme kind chars => ⟨kind, start, stop, chars⟩ :: tokens stop rest
      | _ => tokens stop rest

end Piece

/-- The tokens of a script. -/
def tokenize (source : String) : List Token :=
  Piece.tokens 0 (Piece.ofChars source.toList)

namespace Token

/-- The text of the token. -/
def text (token : Token) : String :=
  String.ofList token.lexeme

end Token

end ScriptAnalysis
