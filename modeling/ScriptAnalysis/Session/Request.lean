import ScriptAnalysis.Json.Decode
import ScriptAnalysis.Json.Written

/-!
# Request lines

A request is one line of JSON: an object with a command, or an array of its fields.
`Request.ofLine` reads a line. A line that is no JSON at all is told apart from one of
the wrong shape, whose problem is reported with its place in the line. What the parser
says of a line that is no JSON is left open: `Json.syntaxError` stands for it.
-/

namespace ScriptAnalysis

open ScriptAnalysis.Json (Written WrittenName)

/-- One request. -/
structure Request where
  /-- Echoed in the response. -/
  id : Json
  command : String
  parameters : Json

/-- What is wrong with the shape of a line. -/
inductive RequestFault where
  | shape (error : ShapeError)
  /-- There are more items than fields. -/
  | surplus
  deriving DecidableEq, Repr

/-- The wording of each problem. -/
def RequestFault.message : RequestFault → String
  | .shape error => error.message
  | .surplus => "trailing characters"

/-- Stands for what a JSON parser says of a text that is no JSON. The parser's own
message, with the place and the reason, is not modelled. No proof looks into this one. -/
@[irreducible]
def Json.syntaxError : String := "<json syntax error>"

/-- Why a line is no request. -/
inductive RequestError where
  /-- The line is no JSON, or its JSON means no value. -/
  | notJson
  /-- The line has the wrong shape; the problem was seen after `column` bytes of a line. -/
  | misshapen (fault : RequestFault) (line column : Nat)
  deriving DecidableEq, Repr

/-- The wording of each problem. -/
def RequestError.message : RequestError → String
  | .notJson => Json.syntaxError
  | .misshapen fault line column =>
      fault.message ++ " at line " ++ toString line ++ " column " ++ toString column

namespace Request

/-- A problem that is seen after some bytes of the text; none if a part of the text means
no value. -/
abbrev Problem := Option (RequestFault × Nat)

/-- What has been read of a request. -/
structure Draft where
  id : Option Json
  command : Option String
  parameters : Option Json

/-- The value of a member; it is one level inside the request. -/
def readValue (written : Written) : Except Problem Json :=
  match written.valueWithin (Json.deepestNesting - 1) with
  | some value => .ok value
  | none => .error none

/-- Where a problem with the type of a value is seen: before a bracket, and after anything
else. -/
def mismatchPlace (written : Written) : Nat :=
  match written with
  | .array span _ => span.start
  | .object span _ => span.start
  | other => other.span.stop

/-- The name of a command. -/
def readCommand (written : Written) : Except Problem String :=
  match readValue written with
  | .error problem => .error problem
  | .ok value =>
      match Json.decodeString value with
      | .ok command => .ok command
      | .error error => .error (some (.shape error, mismatchPlace written))

/-- The offset after any blanks that follow a place in the text. -/
def afterBlanks (text : List Char) (offset : Nat) : Nat :=
  match Text.dropBytes offset text with
  | some rest => offset + (rest.takeWhile Json.isJsonBlank).length
  | none => offset

/-- A field of a request. -/
inductive Field where
  | id
  | command
  | parameters
  deriving DecidableEq, Repr

/-- How a field is called. -/
def Field.name : Field → String
  | .id => "id"
  | .command => "command"
  | .parameters => "params"

/-- The field that goes by a name. -/
def Field.ofName? (name : String) : Option Field :=
  [Field.id, Field.command, Field.parameters].find? fun field => field.name == name

/-- Whether the field has been read. -/
def Draft.has (draft : Draft) : Field → Bool
  | .id => draft.id.isSome
  | .command => draft.command.isSome
  | .parameters => draft.parameters.isSome

/-- Read a value into a field. -/
def Draft.read (draft : Draft) (field : Field) (written : Written) : Except Problem Draft :=
  match field with
  | .id => (readValue written).map fun value => { draft with id := some value }
  | .command => (readCommand written).map fun name => { draft with command := some name }
  | .parameters => (readValue written).map fun value => { draft with parameters := some value }

/-- Read a member. One with another name is passed over, whatever it holds; a field that is
there twice is a problem, seen after the second name and the blanks that follow it. -/
def readMember (text : List Char) (name : WrittenName) (written : Written) (draft : Draft) :
    Except Problem Draft :=
  match Json.partsText name.parts with
  | none => .error none
  | some known =>
      match Field.ofName? known with
      | none => .ok draft
      | some field =>
          if draft.has field then
            .error (some (.shape (.duplicateField field.name), afterBlanks text name.span.stop))
          else draft.read field written

/-- Read members in their order. -/
def readMembers (text : List Char) :
    List (WrittenName × Written) → Draft → Except Problem Draft
  | [], draft => .ok draft
  | (name, written) :: rest, draft =>
      match readMember text name written draft with
      | .error problem => .error problem
      | .ok next => readMembers text rest next

/-- Read the members of an object. -/
def readObject (text : List Char) (span : Text.Span) (members : List (WrittenName × Written)) :
    Except Problem Request :=
  match readMembers text members ⟨none, none, none⟩ with
  | .error problem => .error problem
  | .ok draft =>
      match draft.command with
      | none => .error (some (.shape (.missingField "command"), span.stop))
      | some command => .ok ⟨draft.id.getD .null, command, draft.parameters.getD .null⟩

/-- The problem of an array that ends before the command. -/
def tooShort {α : Type} (span : Text.Span) : Except Problem α :=
  .error (some (.shape (.invalidLength 1 "struct Request with 3 elements"), span.stop))

/-- Read the items after the command: perhaps parameters, and nothing else. -/
def readParameters (id : Json) (command : String) : List Written → Except Problem Request
  | [] => .ok ⟨id, command, .null⟩
  | parameters :: surplus =>
      match readValue parameters, surplus with
      | .error problem, _ => .error problem
      | .ok value, [] => .ok ⟨id, command, value⟩
      | .ok _, extra :: _ => .error (some (.surplus, extra.span.start + 1))

/-- Read the items of an array: the id, the command, and then perhaps parameters. -/
def readItems (span : Text.Span) : List Written → Except Problem Request
  | [] => tooShort span
  | [id] =>
      match readValue id with
      | .error problem => .error problem
      | .ok _ => tooShort span
  | id :: command :: others =>
      match readValue id, readCommand command with
      | .error problem, _ => .error problem
      | .ok _, .error problem => .error problem
      | .ok value, .ok name => readParameters value name others

/-- Read a request out of a tree. -/
def ofWritten (text : List Char) : Written → Except Problem Request
  | .object span members => readObject text span members
  | .array span items => readItems span items
  | other =>
      match readValue other with
      | .error problem => .error problem
      | .ok value =>
          match Json.mismatch value "struct Request" with
          | .ok request => .ok request
          | .error error => .error (some (.shape error, mismatchPlace other))

/-- Line and column of a byte offset: one more than the line feeds before it, and the
bytes after the last of them. -/
def place (text : List Char) (offset : Nat) : Nat × Nat :=
  let breaks := (Text.withOffsets 0 text).filterMap fun (start, c) =>
    if c = '\n' && start < offset then some (start + 1) else none
  (1 + breaks.length, offset - breaks.getLast?.getD 0)

/-- Read a line. The shape of a line matters only if all of it means a value. -/
def ofLine (line : String) : Except RequestError Request :=
  match Json.Written.ofText? line with
  | none => .error .notJson
  | some written =>
      match ofWritten line.toList written, written.value? with
      | .ok request, _ => .ok request
      | .error (some (fault, offset)), some _ =>
          let (row, column) := place line.toList offset
          .error (.misshapen fault row column)
      | .error _, _ => .error .notJson

end Request

end ScriptAnalysis
