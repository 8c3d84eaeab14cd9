import ScriptAnalysis.Text.Cursor

/-!
# Complaints about a document

A complaint about the content of a document quotes the line it is about, with carets
under the offending bytes. The complaint about a text that is no document at all is the
parser's own, and its wording is left open: `syntaxError` stands for it.
-/

namespace ScriptAnalysis.Toml

open ScriptAnalysis.Text (Span)

/-- The lines of a text; a line feed at the end opens one more line. -/
def linesOf : List Char → List (List Char)
  | [] => [[]]
  | c :: rest =>
      if c = '\n' then [] :: linesOf rest
      else
        match linesOf rest with
        | [] => [[c]]
        | line :: others => (c :: line) :: others

/-- The characters whose first byte comes before the offset. -/
def charsBefore (offset : Nat) (chars : List Char) : List Char :=
  ((Text.withOffsets 0 chars).takeWhile fun (place, _) => place < offset).map (·.2)

/-- Stands for what a TOML parser says of a text that is no document. The parser's own
message, with the place and the reason, is not modelled. No proof looks into this one. -/
@[irreducible]
def syntaxError : String := "<toml syntax error>"

/-- A complaint about the bytes of a span. Line and column are counted from one, the
column in characters; the carets do not go beyond the line. -/
def excerpt (text : String) (span : Span) (message : String) : String :=
  let before := charsBefore span.start text.toList
  let lineIndex := before.count '\n'
  let column := (before.reverse.takeWhile (· ≠ '\n')).length
  let line := (linesOf text.toList)[lineIndex]?.getD []
  let number := toString (lineIndex + 1)
  let width := min (span.stop - span.start) (Text.byteLength line - column)
  let gutter := String.ofList (List.replicate (number.length + 1) ' ') ++ "|"
  "TOML parse error at line " ++ number ++ ", column " ++ toString (column + 1) ++ "\n" ++
    gutter ++ "\n" ++
    number ++ " | " ++ String.ofList line ++ "\n" ++
    gutter ++ String.ofList (List.replicate (column + 1) ' ') ++
      String.ofList (List.replicate (max width 1) '^') ++ "\n" ++
    message ++ "\n"

end ScriptAnalysis.Toml
