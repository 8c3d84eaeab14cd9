import ScriptAnalysis.Json
import ScriptAnalysis.Text.Cursor
import ScriptAnalysis.Text.Hexadecimal

/-!
# JSON as it is written

`Written.ofText?` reads one line of JSON into a tree that still knows where each part
stood. The grammar alone decides whether there is a tree. What a tree means is a second
question, which `Written.value?` answers: an escaped surrogate may lack its partner, a
number may be beyond the range of a double, and a tree may be nested too deeply.
-/

namespace ScriptAnalysis.Json

open ScriptAnalysis.Text (Cursor Span Scan hexValue?)

/-- A number as it is written. -/
structure NumberText where
  negative : Bool
  whole : List Char
  /-- The digits after the point, none without a point. -/
  fraction : List Char
  /-- The sign and the digits of the exponent. -/
  exponent : Option (Bool × List Char)
  deriving DecidableEq, Repr

/-- A part of a string as it is written: a character, or an escaped 16-bit unit. -/
inductive StringPart where
  | char (c : Char)
  | unit (code : Nat)
  deriving DecidableEq, Repr

/-- The name of a member as it is written. -/
structure WrittenName where
  span : Span
  parts : List StringPart
  deriving DecidableEq, Repr

/-- A value as it is written, every part with its place in the text. -/
inductive Written where
  | null (span : Span)
  | bool (span : Span) (value : Bool)
  | number (span : Span) (text : NumberText)
  | string (span : Span) (parts : List StringPart)
  | array (span : Span) (items : List Written)
  | object (span : Span) (members : List (WrittenName × Written))

/-- Where the value stands. -/
def Written.span : Written → Span
  | .null span => span
  | .bool span _ => span
  | .number span _ => span
  | .string span _ => span
  | .array span _ => span
  | .object span _ => span

/-! ### Numbers -/

/-- The value of a decimal digit. -/
def digit (c : Char) : Nat :=
  c.toNat - 48

/-- Digits taken into a 64-bit significand until the next one would not fit, with the
digits that remain. -/
def gather (significand : Nat) : List Char → Nat × List Char
  | [] => (significand, [])
  | c :: rest =>
      if significand * 10 + digit c < UInt64.size then gather (significand * 10 + digit c) rest
      else (significand, c :: rest)

/-- A power of ten as a double. -/
def powerOfTen (exponent : Nat) : Float :=
  Float.ofScientific 1 false exponent

/-- The double for `significand * 10 ^ exponent`, by one multiplication or division
with a power of ten; exponents below the range of powers are applied in steps, of
which `steps` bounds the number. None if the result is too large. -/
def scale (value : Float) (exponent : Int) : Nat → Option Float
  | 0 => some value
  | steps + 1 =>
      if exponent.natAbs ≤ 308 then
        if 0 ≤ exponent then
          let product := value * powerOfTen exponent.natAbs
          if product.isInf then none else some product
        else some (value / powerOfTen exponent.natAbs)
      else if value == 0.0 then some value
      else if 0 ≤ exponent then none
      else scale (value / powerOfTen 308) (exponent + 308) steps

/-- The value of an exponent's digits, unless it exceeds 31 bits. -/
def exponentValue (digits : List Char) : Option Nat :=
  let value := digits.foldl (fun value c => value * 10 + digit c) 0
  if value < 2147483648 then some value else none

/-- The number with a sign. -/
def signed (negative : Bool) (value : Float) : Number :=
  .float (if negative then -value else value).toBits

/-- The double for a significand and the exponents before and after an `e`. -/
def NumberText.float (text : NumberText) (significand : Nat) (shift : Int) : Option Number :=
  let value := Float.ofNat significand
  match text.exponent with
  | none => (scale value shift 8).map (signed text.negative)
  | some (down, digits) =>
      match exponentValue digits with
      | none =>
          if significand ≠ 0 && !down then none else some (signed text.negative 0.0)
      | some exponent =>
          let total : Int := if down then shift - exponent else shift + exponent
          (scale value total 8).map (signed text.negative)

/-- What a written number means. Without point and exponent it is an integer if it fits
into 64 bits; otherwise it is a double, and so is a negative zero. -/
def NumberText.number? (text : NumberText) : Option Number :=
  let (whole, surplus) := gather 0 text.whole
  let (significand, ignored) := gather whole text.fraction
  let taken := text.fraction.length - ignored.length
  let shift : Int := (surplus.length : Int) - taken
  if text.fraction.isEmpty && text.exponent.isNone && surplus.isEmpty then
    if text.negative then
      if 0 < whole ∧ whole ≤ 9223372036854775808 then some (.integer (-(whole : Int)))
      else some (signed true (Float.ofNat whole))
    else some (.integer whole)
  else text.float significand shift

/-! ### Strings -/

/-- Whether the unit is the first of a pair. -/
def isLeading (code : Nat) : Bool :=
  0xD800 ≤ code && code < 0xDC00

/-- Whether the unit is the second of a pair. -/
def isTrailing (code : Nat) : Bool :=
  0xDC00 ≤ code && code < 0xE000

/-- The characters of a string, if every escaped surrogate stands in a pair. -/
def joinParts : List StringPart → Option (List Char)
  | [] => some []
  | .char c :: rest => (joinParts rest).map (c :: ·)
  | .unit first :: .unit second :: rest =>
      if isLeading first then
        if isTrailing second then
          (joinParts rest).map
            (Char.ofNat (0x10000 + (first - 0xD800) * 0x400 + (second - 0xDC00)) :: ·)
        else none
      else if isTrailing first then none
      else (joinParts (.unit second :: rest)).map (Char.ofNat first :: ·)
  | .unit only :: rest =>
      if isLeading only || isTrailing only then none
      else (joinParts rest).map (Char.ofNat only :: ·)

/-- The text of a string, if every escaped surrogate stands in a pair. -/
def partsText (parts : List StringPart) : Option String :=
  (joinParts parts).map String.ofList

/-! ### Meaning -/

/-- The deepest nesting of arrays and objects that a value may have. -/
def deepestNesting : Nat := 127

mutual

/-- What the tree means, if its strings and numbers mean something and it is not nested
more than `depth` levels deep. Of members with one name the last counts. -/
def Written.valueWithin (depth : Nat) : Written → Option Json
  | .null _ => some .null
  | .bool _ value => some (.bool value)
  | .number _ text => text.number?.map .number
  | .string _ parts => (partsText parts).map .string
  | .array _ items =>
      match depth with
      | 0 => none
      | inner + 1 => (itemsWithin inner items).map .array
  | .object _ members =>
      match depth with
      | 0 => none
      | inner + 1 =>
          (membersWithin inner members).map fun members => .object (sortMembers members)

/-- What the items of an array mean. -/
def itemsWithin (depth : Nat) : List Written → Option (List Json)
  | [] => some []
  | item :: rest =>
      match item.valueWithin depth, itemsWithin depth rest with
      | some value, some values => some (value :: values)
      | _, _ => none

/-- What the members of an object mean. -/
def membersWithin (depth : Nat) : List (WrittenName × Written) → Option (List (String × Json))
  | [] => some []
  | (name, item) :: rest =>
      match partsText name.parts, item.valueWithin depth, membersWithin depth rest with
      | some text, some value, some values => some ((text, value) :: values)
      | _, _, _ => none

end

/-- What a whole tree means. -/
def Written.value? (written : Written) : Option Json :=
  written.valueWithin deepestNesting

/-! ### Grammar -/

/-- Blanks between the parts of a text. -/
def isJsonBlank (c : Char) : Bool :=
  c == ' ' || c == '\n' || c == '\t' || c == '\r'

/-- The unit that four hexadecimal digits stand for. -/
def hexUnit (a b c d : Char) : Option Nat :=
  match hexValue? a, hexValue? b, hexValue? c, hexValue? d with
  | some a, some b, some c, some d => some (((a * 16 + b) * 16 + c) * 16 + d)
  | _, _, _, _ => none

/-- The character that an escape of one letter stands for. -/
def simpleEscape (c : Char) : Option Char :=
  if c = '\x22' then some '\x22'
  else if c = '\\' then some '\\'
  else if c = '/' then some '/'
  else if c = 'b' then some '\x08'
  else if c = 'f' then some '\x0c'
  else if c = 'n' then some '\n'
  else if c = 'r' then some '\r'
  else if c = 't' then some '\t'
  else none

/-- The parts of a string up to its closing quote, and the place after it. -/
def scanParts (offset : Nat) : List Char → Option (List StringPart × Cursor)
  | [] => none
  | '\\' :: 'u' :: a :: b :: c :: d :: rest =>
      match hexUnit a b c d, scanParts (offset + 6) rest with
      | some code, some (parts, after) => some (.unit code :: parts, after)
      | _, _ => none
  | '\\' :: letter :: rest =>
      match simpleEscape letter, scanParts (offset + 2) rest with
      | some c, some (parts, after) => some (.char c :: parts, after)
      | _, _ => none
  | c :: rest =>
      if c = '\x22' then some ([], ⟨rest, offset + 1⟩)
      else if c = '\\' || c.toNat < 0x20 then none
      else
        match scanParts (offset + c.utf8Size) rest with
        | some (parts, after) => some (.char c :: parts, after)
        | none => none

/-- A string with its opening quote. -/
def scanString : Scan (List StringPart) := fun cursor =>
  match cursor.next? with
  | some ('\x22', after) => scanParts after.offset after.rest
  | _ => none

/-- A run of digits; at least one. -/
def scanDigits : Scan (List Char) := fun cursor =>
  match cursor.takeWhile Char.isDigit with
  | ([], _) => none
  | found => some found

/-- The digits before a point: a zero alone, or a run that does not begin with zero. -/
def scanWhole : Scan (List Char) := fun cursor =>
  match scanDigits cursor with
  | some (['0'], after) => some (['0'], after)
  | some ('0' :: _, _) => none
  | other => other

/-- The digits after a point, if there is a point. -/
def scanFraction : Scan (List Char) := fun cursor =>
  match cursor.next? with
  | some ('.', after) => scanDigits after
  | _ => some ([], cursor)

/-- The sign and digits of an exponent, if there is one. -/
def scanExponent : Scan (Option (Bool × List Char)) := fun cursor =>
  match cursor.next? with
  | some (mark, after) =>
      if mark = 'e' || mark = 'E' then
        match after.next? with
        | some ('-', digits) => (scanDigits digits).map fun (found, rest) => (some (true, found), rest)
        | some ('+', digits) => (scanDigits digits).map fun (found, rest) => (some (false, found), rest)
        | _ => (scanDigits after).map fun (found, rest) => (some (false, found), rest)
      else some (none, cursor)
  | none => some (none, cursor)

/-- A number. -/
def scanNumber : Scan NumberText := fun cursor =>
  let (negative, start) :=
    match cursor.next? with
    | some ('-', after) => (true, after)
    | _ => (false, cursor)
  match scanWhole start with
  | none => none
  | some (whole, afterWhole) =>
      match scanFraction afterWhole with
      | none => none
      | some (fraction, afterFraction) =>
          match scanExponent afterFraction with
          | none => none
          | some (exponent, after) => some (⟨negative, whole, fraction, exponent⟩, after)

/-- The place after any blanks. -/
def skipBlanks (cursor : Cursor) : Cursor :=
  cursor.skipWhile isJsonBlank

mutual

/-- A value at the cursor, without blanks before it. -/
def scanValue (fuel : Nat) (cursor : Cursor) : Option (Written × Cursor) :=
  match fuel with
  | 0 => none
  | fuel + 1 =>
      let finish := fun (after : Cursor) => (⟨cursor.offset, after.offset⟩ : Span)
      match cursor.next? with
      | none => none
      | some ('n', after) =>
          (after.skipChars? ['u', 'l', 'l']).map fun after => (.null (finish after), after)
      | some ('t', after) =>
          (after.skipChars? ['r', 'u', 'e']).map fun after => (.bool (finish after) true, after)
      | some ('f', after) =>
          (after.skipChars? ['a', 'l', 's', 'e']).map fun after =>
            (.bool (finish after) false, after)
      | some ('\x22', _) =>
          (scanString cursor).map fun (parts, after) => (.string (finish after) parts, after)
      | some ('[', after) =>
          let inside := skipBlanks after
          match inside.next? with
          | some (']', after) => some (.array (finish after) [], after)
          | _ =>
              match scanItems fuel inside with
              | some (items, after) => some (.array (finish after) items, after)
              | none => none
      | some ('\x7b', after) =>
          let inside := skipBlanks after
          match inside.next? with
          | some ('\x7d', after) => some (.object (finish after) [], after)
          | _ =>
              match scanMembers fuel inside with
              | some (members, after) => some (.object (finish after) members, after)
              | none => none
      | some _ => (scanNumber cursor).map fun (text, after) => (.number (finish after) text, after)

/-- The items of an array from the first one to the closing bracket. -/
def scanItems (fuel : Nat) (cursor : Cursor) : Option (List Written × Cursor) :=
  match fuel with
  | 0 => none
  | fuel + 1 =>
      match scanValue fuel cursor with
      | none => none
      | some (item, after) =>
          match (skipBlanks after).next? with
          | some (']', after) => some ([item], after)
          | some (',', after) =>
              match scanItems fuel (skipBlanks after) with
              | some (items, after) => some (item :: items, after)
              | none => none
          | _ => none

/-- The members of an object from the first one to the closing brace. -/
def scanMembers (fuel : Nat) (cursor : Cursor) :
    Option (List (WrittenName × Written) × Cursor) :=
  match fuel with
  | 0 => none
  | fuel + 1 =>
      match scanString cursor with
      | none => none
      | some (parts, afterName) =>
          let name : WrittenName := ⟨⟨cursor.offset, afterName.offset⟩, parts⟩
          match (skipBlanks afterName).next? with
          | some (':', after) =>
              match scanValue fuel (skipBlanks after) with
              | none => none
              | some (item, after) =>
                  match (skipBlanks after).next? with
                  | some ('\x7d', after) => some ([(name, item)], after)
                  | some (',', after) =>
                      match scanMembers fuel (skipBlanks after) with
                      | some (members, after) => some ((name, item) :: members, after)
                      | none => none
                  | _ => none
          | _ => none

end

/-- Read a text that holds one value and blanks around it. Every call of the readers
above either takes a character or follows one that did, so twice the number of
characters bounds their nesting. -/
def Written.ofText? (text : String) : Option Written :=
  let cursor := skipBlanks (Cursor.ofText text)
  match scanValue (2 * cursor.rest.length + 2) cursor with
  | some (written, after) => if (skipBlanks after).atEnd then some written else none
  | none => none

/-- Read a text that means one value. -/
def ofText? (text : String) : Option Json :=
  (Written.ofText? text).bind Written.value?

end ScriptAnalysis.Json
