/-!
# Lines of a text

`lines` cuts a text at its line feeds.
-/

namespace ScriptAnalysis.Text

/-- The lines of a text. A line feed ends a line, with a carriage return before it, if
there is one; the text after the last line feed is a line unless it is empty. -/
def linesFrom (current : List Char) : List Char → List (List Char)
  | [] => if current.isEmpty then [] else [current.reverse]
  | '\n' :: rest =>
      let line :=
        match current with
        | '\r' :: before => before
        | other => other
      line.reverse :: linesFrom [] rest
  | c :: rest => linesFrom (c :: current) rest

/-- The lines of a text. -/
def lines (text : String) : List String :=
  (linesFrom [] text.toList).map String.ofList

end ScriptAnalysis.Text
