import ScriptAnalysis.Text.Cursor
import ScriptAnalysis.Text.Hexadecimal

/-!
# TOML strings, blanks and comments

Four kinds of strings: basic and literal ones on one line, and both of them over
several lines between triple quotes. Line breaks inside a string are read as a line
feed, and the one right after an opening triple quote is left out.
-/

namespace ScriptAnalysis.Toml

open ScriptAnalysis.Text (Cursor Scan hexValue?)

/-- Blanks on one line. -/
def isLineBlank (c : Char) : Bool :=
  c == ' ' || c == '\t'

/-- The place after blanks on the line. -/
def skipLineBlanks (cursor : Cursor) : Cursor :=
  cursor.skipWhile isLineBlank

/-- The place after a line break, if one follows. -/
def skipBreak? (cursor : Cursor) : Option Cursor :=
  match cursor.rest with
  | '\n' :: rest => some ⟨rest, cursor.offset + 1⟩
  | '\r' :: '\n' :: rest => some ⟨rest, cursor.offset + 2⟩
  | _ => none

/-- What may stand inside a comment. -/
def isCommentChar (c : Char) : Bool :=
  c == '\t' || (0x20 ≤ c.toNat && c.toNat ≠ 0x7F)

/-- The place after a comment, or the same place if none follows. -/
def skipComment (cursor : Cursor) : Cursor :=
  match cursor.next? with
  | some ('#', after) => after.skipWhile isCommentChar
  | _ => cursor

/-- The place after blanks, line breaks and comments; at most `fuel` of them. -/
def skipLines : Nat → Cursor → Cursor
  | 0, cursor => cursor
  | fuel + 1, cursor =>
      match cursor.next? with
      | some ('#', _) => skipLines fuel (skipComment cursor)
      | some (c, after) =>
          if isLineBlank c then skipLines fuel after
          else
            match skipBreak? cursor with
            | some after => skipLines fuel after
            | none => cursor
      | none => cursor

/-- The place after all blanks, line breaks and comments. -/
def skipSpace (cursor : Cursor) : Cursor :=
  skipLines cursor.rest.length cursor

/-- The place after the rest of a line: blanks, a comment, and the break or the end of
the document. -/
def skipLineEnd? (cursor : Cursor) : Option Cursor :=
  let after := skipComment (skipLineBlanks cursor)
  if after.atEnd then some after else skipBreak? after

/-- A character that a basic string may hold as it stands. -/
def isBasicChar (c : Char) : Bool :=
  c == '\t' || (0x20 ≤ c.toNat && c ≠ '\x22' && c ≠ '\\' && c.toNat ≠ 0x7F)

/-- A character that a literal string may hold. -/
def isLiteralChar (c : Char) : Bool :=
  c == '\t' || (0x20 ≤ c.toNat && c ≠ '\x27' && c.toNat ≠ 0x7F)

/-- The character with a code point of exactly `count` hexadecimal digits. -/
def scanCodePoint (count : Nat) : Scan Char := fun cursor =>
  let digits := cursor.rest.take count
  if digits.length = count then
    match digits.mapM hexValue? with
    | some values =>
        let code := values.foldl (fun value digit => value * 16 + digit) 0
        if code.isValidChar then
          some (Char.ofNat code, ⟨cursor.rest.drop count, cursor.offset + count⟩)
        else none
    | none => none
  else none

/-- The character that an escape stands for; the backslash has been read. -/
def scanEscape : Scan Char := fun cursor =>
  match cursor.next? with
  | some (c, after) =>
      if c = 'b' then some ('\x08', after)
      else if c = 'f' then some ('\x0c', after)
      else if c = 'n' then some ('\n', after)
      else if c = 'r' then some ('\r', after)
      else if c = 't' then some ('\t', after)
      else if c = '\x22' then some ('\x22', after)
      else if c = '\\' then some ('\\', after)
      else if c = 'u' then scanCodePoint 4 after
      else if c = 'U' then scanCodePoint 8 after
      else none
  | none => none

/-- The rest of a basic string on one line. -/
def scanBasicRest : Nat → Scan (List Char)
  | 0, _ => none
  | fuel + 1, cursor =>
      match cursor.next? with
      | some ('\x22', after) => some ([], after)
      | some ('\\', after) =>
          match scanEscape after with
          | some (c, after) => (scanBasicRest fuel after).map fun (rest, after) => (c :: rest, after)
          | none => none
      | some (c, after) =>
          if isBasicChar c then
            (scanBasicRest fuel after).map fun (rest, after) => (c :: rest, after)
          else none
      | none => none

/-- A basic string on one line. -/
def scanBasic : Scan String := fun cursor =>
  match cursor.next? with
  | some ('\x22', after) =>
      (scanBasicRest (after.rest.length + 1) after).map fun (chars, after) =>
        (String.ofList chars, after)
  | _ => none

/-- A literal string on one line. -/
def scanLiteral : Scan String := fun cursor =>
  match cursor.next? with
  | some ('\x27', after) =>
      let (chars, after) := after.takeWhile isLiteralChar
      (after.skipChars? ['\x27']).map fun after => (String.ofList chars, after)
  | _ => none

/-- The place after blanks and line breaks; at most `fuel` of them. -/
def skipBlankLines : Nat → Cursor → Cursor
  | 0, cursor => cursor
  | fuel + 1, cursor =>
      match skipBreak? cursor with
      | some after => skipBlankLines fuel after
      | none =>
          match cursor.next? with
          | some (c, after) => if isLineBlank c then skipBlankLines fuel after else cursor
          | none => cursor

/-- The place after a backslash at the end of a line, the break, and all blanks and
breaks that follow; the backslash has been read. -/
def skipJoinedLine? (cursor : Cursor) : Option Cursor :=
  (skipBreak? (skipLineBlanks cursor)).map fun after =>
    skipBlankLines after.rest.length after

/-- The end of a string with triple quotes: up to two quotes more than the closing three
belong to the string. -/
def scanClosing (quote : Char) : Scan (List Char) := fun cursor =>
  match cursor.skipChars? [quote, quote, quote] with
  | none => none
  | some after =>
      match after.skipChars? [quote, quote], after.skipChars? [quote] with
      | some further, _ => some ([quote, quote], further)
      | none, some further => some ([quote], further)
      | none, none => some ([], after)

/-- The rest of a string with triple quotes. Only a basic one has escapes. -/
def scanLongRest (quote : Char) (holds : Char → Bool) (isBasic : Bool) : Nat → Scan (List Char)
  | 0, _ => none
  | fuel + 1, cursor =>
      match scanClosing quote cursor with
      | some found => some found
      | none =>
          let more := fun (c : Char) (after : Cursor) =>
            (scanLongRest quote holds isBasic fuel after).map fun (rest, after) =>
              (c :: rest, after)
          match skipBreak? cursor with
          | some after => more '\n' after
          | none =>
              match cursor.next? with
              | none => none
              | some (c, after) =>
                  if c = '\\' && isBasic then
                    match skipJoinedLine? after with
                    | some after => scanLongRest quote holds isBasic fuel after
                    | none =>
                        match scanEscape after with
                        | some (escaped, after) => more escaped after
                        | none => none
                  else if holds c || c = quote then more c after
                  else none

/-- A string between triple quotes. -/
def scanLong (quote : Char) (holds : Char → Bool) (isBasic : Bool) : Scan String := fun cursor =>
  match cursor.skipChars? [quote, quote, quote] with
  | none => none
  | some after =>
      let start := (skipBreak? after).getD after
      (scanLongRest quote holds isBasic (start.rest.length + 1) start).map
        fun (chars, after) => (String.ofList chars, after)

/-- Any string. Three quotes always open a string over several lines. -/
def scanText : Scan String := fun cursor =>
  if cursor.startsWith ['\x22', '\x22', '\x22'] then scanLong '\x22' isBasicChar true cursor
  else if cursor.startsWith ['\x27', '\x27', '\x27'] then
    scanLong '\x27' isLiteralChar false cursor
  else
    match cursor.next? with
    | some ('\x22', _) => scanBasic cursor
    | _ => scanLiteral cursor

end ScriptAnalysis.Toml
