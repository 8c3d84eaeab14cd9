import ScriptAnalysis.Toml.Moment
import ScriptAnalysis.Toml.Number
import ScriptAnalysis.Toml.Text
import ScriptAnalysis.Toml.Value

/-!
# TOML documents

`Document.ofText?` reads a text of TOML 1.0 into the members of its root table, or finds
that it is none. Values nest at most 79 levels deep, and a dotted key has fewer than 80
parts.
-/

namespace ScriptAnalysis.Toml

open ScriptAnalysis.Text (Cursor Scan Span)

/-- The deepest nesting of arrays and inline tables. -/
def deepestNesting : Nat := 79

/-- A character of a key without quotes. -/
def isBareChar (c : Char) : Bool :=
  c.isAlphanum || c == '_' || c == '-'

/-- One part of a key. -/
def scanSimpleKey : Scan Key := fun cursor =>
  let found : Option (String × Cursor) :=
    match cursor.next? with
    | some ('\x22', _) => scanBasic cursor
    | some ('\x27', _) => scanLiteral cursor
    | _ =>
        match cursor.takeWhile isBareChar with
        | ([], _) => none
        | (chars, after) => some (String.ofList chars, after)
  found.map fun (text, after) => (⟨text, ⟨cursor.offset, after.offset⟩⟩, after)

/-- The parts of a key with dots between them, and blanks around each. -/
def scanKeyParts : Nat → Scan (List Key)
  | 0, _ => none
  | fuel + 1, cursor =>
      match scanSimpleKey (skipLineBlanks cursor) with
      | none => none
      | some (key, after) =>
          let after := skipLineBlanks after
          match after.next? with
          | some ('.', further) =>
              match scanKeyParts fuel further with
              | some (keys, last) => some (key :: keys, last)
              | none => none
          | _ => some ([key], after)

/-- A key, which may be dotted. -/
def scanKey : Scan (List Key) := fun cursor =>
  match scanKeyParts (cursor.rest.length + 1) cursor with
  | some (keys, after) => if keys.length ≤ deepestNesting then some (keys, after) else none
  | none => none

/-- The items of an array up to its closing bracket; line breaks and comments may stand
anywhere between them, and a comma may follow the last one. -/
def scanArrayRest (item : Scan Node) : Nat → Scan (List Node)
  | 0, _ => none
  | fuel + 1, cursor =>
      let start := skipSpace cursor
      match start.next? with
      | some (']', after) => some ([], after)
      | _ =>
          match item start with
          | none => none
          | some (first, after) =>
              let after := skipSpace after
              match after.next? with
              | some (']', last) => some ([first], last)
              | some (',', further) =>
                  (scanArrayRest item fuel further).map fun (items, last) =>
                    (first :: items, last)
              | _ => none

/-- The members of an inline table up to its closing brace, on one line. -/
def scanInlineRest (item : Scan Node) : Nat → Members → Scan Members
  | 0, _, _ => none
  | fuel + 1, members, cursor =>
      match scanKey cursor with
      | none => none
      | some (keys, afterKey) =>
          match keys.getLast?, afterKey.skipChars? ['='] with
          | some key, some afterMark =>
              match item (skipLineBlanks afterMark) with
              | none => none
              | some (value, afterValue) =>
                  match insertValue keys.dropLast key value .inline members with
                  | none => none
                  | some members =>
                      match (skipLineBlanks afterValue).next? with
                      | some ('\x7d', last) => some (members, last)
                      | some (',', further) => scanInlineRest item fuel members further
                      | _ => none
          | _, _ => none

/-- A value of plain form: a moment, a float, or an integer. -/
def scanPlain : Scan Scalar := fun cursor =>
  match scanMoment cursor with
  | some (moment, after) => some (.moment moment, after)
  | none =>
      match scanFinite cursor with
      | some (bits, after) => some (.float bits, after)
      | none =>
          match scanSpecial cursor with
          | some (bits, after) => some (.float bits, after)
          | none => (scanInteger cursor).map fun (value, after) => (.integer value, after)

/-- A value without parts. -/
def scanScalar : Scan Scalar := fun cursor =>
  match cursor.next? with
  | some (c, _) =>
      if c = '\x22' || c = '\x27' then
        (scanText cursor).map fun (text, after) => (.string text, after)
      else if c = 't' then
        (cursor.skipChars? ['t', 'r', 'u', 'e']).map fun after => (.boolean true, after)
      else if c = 'f' then
        (cursor.skipChars? ['f', 'a', 'l', 's', 'e']).map fun after => (.boolean false, after)
      else scanPlain cursor
  | none => none

/-- A value with at most `depth` levels of arrays and inline tables. -/
def scanValue (depth : Nat) (cursor : Cursor) : Option (Node × Cursor) :=
  match cursor.next?, depth with
  | some ('[', _), 0 => none
  | some ('\x7b', _), 0 => none
  | some ('[', after), inner + 1 =>
      (scanArrayRest (scanValue inner) (after.rest.length + 1) after).map fun (items, last) =>
        (.array ⟨cursor.offset, last.offset⟩ items, last)
  | some ('\x7b', after), inner + 1 =>
      match (skipLineBlanks after).next? with
      | some ('\x7d', last) =>
          some (.table .inline (some ⟨cursor.offset, last.offset⟩) [], last)
      | _ =>
          (scanInlineRest (scanValue inner) (after.rest.length + 1) [] after).map
            fun (members, last) =>
              (.table .inline (some ⟨cursor.offset, last.offset⟩) members, last)
  | _, _ =>
      (scanScalar cursor).map fun (value, last) =>
        (.scalar ⟨cursor.offset, last.offset⟩ value, last)

/-- A line with a key and a value. -/
def scanAssignment (draft : Draft) (cursor : Cursor) : Option (Draft × Cursor) := do
  let (keys, cursor) ← scanKey cursor
  let key ← keys.getLast?
  let cursor ← cursor.skipChars? ['=']
  let (value, cursor) ← scanValue deepestNesting (skipLineBlanks cursor)
  let cursor ← skipLineEnd? cursor
  let draft ← draft.addValue keys.dropLast key value
  pure (draft, cursor)

/-- A line with the header of a table, or of one more table of a group. -/
def scanHeader (draft : Draft) (cursor : Cursor) : Option (Draft × Cursor) :=
  match cursor.skipChars? ['[', '['] with
  | some inside => do
      let (keys, after) ← scanKey inside
      let after ← after.skipChars? [']', ']']
      let draft ← draft.openGrouped keys ⟨cursor.offset, after.offset⟩
      let after ← skipLineEnd? after
      pure (draft, after)
  | none => do
      let inside ← cursor.skipChars? ['[']
      let (keys, after) ← scanKey inside
      let after ← after.skipChars? [']']
      let draft ← draft.openTable keys ⟨cursor.offset, after.offset⟩
      let after ← skipLineEnd? after
      pure (draft, after)

/-- All lines of a document; every one takes at least a character. -/
def scanDocument : Nat → Draft → Cursor → Option Draft
  | 0, _, _ => none
  | fuel + 1, draft, cursor =>
      let start := skipLineBlanks cursor
      match start.next? with
      | none => some draft
      | some (c, _) =>
          let line :=
            if c = '#' || c = '\n' || c = '\r' then
              (skipLineEnd? start).map fun after => (draft, after)
            else if c = '[' then scanHeader draft start
            else scanAssignment draft start
          match line with
          | some (draft, after) => scanDocument fuel draft after
          | none => none

/-- The place after a byte order mark at the very beginning. -/
def skipMark (cursor : Cursor) : Cursor :=
  match cursor.next? with
  | some (c, after) => if c = '\ufeff' then after else cursor
  | none => cursor

/-- The members of the root table of a document, if the text is one. -/
def documentOfText? (text : String) : Option Members :=
  let cursor := skipMark (Cursor.ofText text)
  (scanDocument (cursor.rest.length + 1) Draft.start cursor).bind Draft.close

end ScriptAnalysis.Toml
