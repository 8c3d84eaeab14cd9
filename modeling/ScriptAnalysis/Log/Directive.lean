import ScriptAnalysis.Log.Pattern
import ScriptAnalysis.Log.Record
import ScriptAnalysis.Text.Cursor

/-!
# Log directives

A directive such as `warn` or `quill_cache=debug` says how verbose the records of some
part of the program may be. It may ask for a field, as in `[{path}]=debug`. Directives
that are bound to spans, or to the value of a field in them, are understood but never
fit, since no span is ever opened.
-/

namespace ScriptAnalysis

open ScriptAnalysis.Text (Cursor)

/-- What a directive is about apart from the part of the program. -/
inductive DirectiveScope where
  | anywhere
  /-- Records that have the field. -/
  | field (name : String)
  /-- Records inside certain spans. -/
  | spans
  deriving DecidableEq, Repr

/-- How verbose some records may be. -/
structure LogDirective where
  /-- Nothing is shown at zero. -/
  verbosity : Nat
  /-- What the part of the program begins with. -/
  target : Option String
  scope : DirectiveScope
  deriving DecidableEq, Repr

namespace LogDirective

/-! ### Verbosity -/

/-- The greatest verbosity. -/
def everything : Nat := 5

/-- The value of a run of digits with an optional plus sign before it. -/
def readDigits (chars : List Char) : Option Nat :=
  let digits :=
    match chars with
    | '+' :: rest => rest
    | other => other
  if digits.isEmpty || !digits.all Char.isDigit then none
  else some (digits.foldl (fun value c => value * 10 + (c.toNat - 48)) 0)

/-- The names of the verbosities, in small letters. -/
def verbosityNames : List (String × Nat) :=
  [("off", 0), ("error", 1), ("warn", 2), ("info", 3), ("debug", 4), ("trace", 5)]

/-- A verbosity, by number or by name in either case. -/
def readVerbosity (chars : List Char) : Option Nat :=
  match readDigits chars with
  | some number => if number ≤ everything then some number else none
  | none =>
      let small := String.ofList (chars.map Char.toLower)
      (verbosityNames.find? fun entry => entry.1 == small).map (·.2)

/-- The verbosity after an equals sign; nothing there means everything. -/
def readAssigned (chars : List Char) : Option Nat :=
  if chars.isEmpty then some everything else readVerbosity chars

/-! ### Values of fields -/

/-- Digits with at most one point among or beside them, and perhaps an exponent. -/
def isDecimal (chars : List Char) : Bool :=
  let whole := chars.takeWhile Char.isDigit
  let (fraction, rest) :=
    match chars.dropWhile Char.isDigit with
    | '.' :: after => (after.takeWhile Char.isDigit, after.dropWhile Char.isDigit)
    | after => ([], after)
  let exponent :=
    match rest with
    | [] => true
    | mark :: '+' :: digits | mark :: '-' :: digits | mark :: digits =>
        (mark == 'e' || mark == 'E') && !digits.isEmpty && digits.all Char.isDigit
  !(whole.isEmpty && fraction.isEmpty) && exponent

/-- Whether the characters are a number with a plus sign before it. Every other number, and
both truth values, are patterns too. -/
def isPositiveNumber : List Char → Bool
  | '+' :: rest =>
      isDecimal rest || ["inf", "infinity", "nan"].contains (String.ofList (rest.map Char.toLower))
  | _ => false

/-- Read what stands between braces: the name of a field and perhaps a value for it. A
further equals sign ends the value. -/
def readField (chars : List Char) : Option DirectiveScope :=
  if chars.isEmpty then none
  else
    match chars.dropWhile (· ≠ '=') with
    | [] => some (.field (String.ofList chars))
    | _ :: after =>
        let value := after.takeWhile (· ≠ '=')
        if isPositiveNumber value || Pattern.isPattern value then some .spans else none

/-! ### Reading -/

/-- A character that a directive may begin with, apart from an opening bracket. -/
def beginsDirective (c : Char) : Bool :=
  c == '-' || c == ':' || c == '_' || Text.isAlphanumeric c

/-- The characters of a segment between two byte offsets. -/
def part (segment : List Char) (start stop : Nat) : List Char :=
  (Text.slice start stop segment).getD []

/-- The characters of a segment from a byte offset on. -/
def partFrom (segment : List Char) (start : Nat) : List Char :=
  (Text.dropBytes start segment).getD []

/-- What follows the brackets of a directive: nothing, or an assigned verbosity. -/
def readAfterScope (segment : List Char) (cursor : Cursor) : Option Nat :=
  match cursor.next? with
  | none => some everything
  | some ('=', after) => readAssigned (partFrom segment after.offset)
  | some _ => none

/-- The scope between brackets, given the place after the opening one: a span's name, and
a field between braces. The place after the closing bracket is returned. -/
def readScope (segment : List Char) (cursor : Cursor) : Option (DirectiveScope × Cursor) :=
  let (span, mark) := cursor.takeWhile fun c => c != ']' && c != '\x7b'
  match mark.next? with
  | some (']', after) => some (.spans, after)
  | some (_, inside) =>
      let closing := inside.skipWhile (· ≠ '\x7d')
      match readField (part segment inside.offset closing.offset),
          closing.skipChars? ['\x7d', ']'] with
      | some field, some after => some (if span.isEmpty then field else .spans, after)
      | _, _ => none
  | none => none

/-- Read one directive: a verbosity, or a target with perhaps a scope and perhaps a
verbosity. The marks that divide a segment are looked for without the white space around
it, and their offsets are then counted from the beginning of the whole segment: white
space before a directive shifts all of its parts, and white space after it belongs to the
last one. -/
def read (segment : List Char) : Option LogDirective :=
  let cursor : Cursor := ⟨Text.trimEnd Text.isBlank (segment.dropWhile Text.isBlank), 0⟩
  let mark := cursor.skipWhile fun c => c != '=' && c != '['
  let target :=
    if mark.offset == 0 then none else some (String.ofList (part segment 0 mark.offset))
  if !(cursor.rest.head?.any fun c => c == '[' || beginsDirective c) then none
  else
    match mark.next? with
    | none =>
        match readVerbosity segment with
        | some verbosity => some ⟨verbosity, none, .anywhere⟩
        | none => some ⟨everything, some (String.ofList segment), .anywhere⟩
    | some ('=', after) =>
        (readAssigned (partFrom segment after.offset)).map fun verbosity =>
          ⟨verbosity, target, .anywhere⟩
    | some (_, inside) =>
        match readScope segment inside with
        | none => none
        | some (scope, after) =>
            (readAfterScope segment after).map fun verbosity => ⟨verbosity, target, scope⟩

/-! ### Choice -/

/-- The field that a record must have. -/
def fieldName? (directive : LogDirective) : Option String :=
  match directive.scope with
  | .field name => some name
  | _ => none

/-- Whether a record has a field. The message is a field of every record. -/
def hasField (record : LogRecord) (name : String) : Bool :=
  name == "message" || record.fields.any fun field => field.1 == name

/-- Whether the directive is about the record. -/
def fits (directive : LogDirective) (record : LogRecord) : Bool :=
  directive.scope != .spans &&
    (match directive.target with
      | some target => target.toList.isPrefixOf record.target.toList
      | none => true) &&
    directive.fieldName?.all (hasField record)

/-- How specific the target of the directive is: a longer one is more so than a shorter
one, and any target more than none. -/
def targetRank (directive : LogDirective) : Nat :=
  (directive.target.map fun target => target.utf8ByteSize + 1).getD 0

/-- Whether the first of two fields is at least as specific as the second. A field is more
specific than none, and of two fields the one with the later name. -/
def asSpecificField : Option String → Option String → Bool
  | _, none => true
  | none, some _ => false
  | some left, some right => right ≤ left

/-- Whether the first directive is at least as specific as the second. The target counts
more than the field. -/
def asSpecific (left right : LogDirective) : Bool :=
  right.targetRank < left.targetRank ||
    (left.targetRank == right.targetRank && asSpecificField left.fieldName? right.fieldName?)

end LogDirective

end ScriptAnalysis
