import ScriptAnalysis.Json
import ScriptAnalysis.ShapeError
import ScriptAnalysis.Text.Quoted

/-!
# Reading typed values out of JSON

A decoder takes a `Json` value apart and stops at the first problem, which it reports
as a `ShapeError`. `Record.decode` is the one reader of records: a record is written as
an object, whose members are read in their order, or as an array of its fields.
-/

namespace ScriptAnalysis.Json

/-- What a message calls the value that was found. -/
def describe : Json → String
  | .null => "null"
  | .bool value => "boolean " ++ ShapeError.ticked (if value then "true" else "false")
  | .number (.integer value) => "integer " ++ ShapeError.ticked (toString value)
  | .number (.float bits) => "floating point " ++ ShapeError.ticked (floatText bits)
  | .string text => "string " ++ Text.quoted text
  | .array _ => "sequence"
  | .object _ => "map"

/-- The error for a value of another type. -/
def mismatch {α : Type} (found : Json) (expected : String) : Except ShapeError α :=
  .error (.invalidType (describe found) expected)

/-- A reader of one type. -/
abbrev Decoder (α : Type) := Json → Except ShapeError α

/-- A text; the name of what is wanted appears in the error. -/
def decodeTextAs (expected : String) : Decoder String
  | .string text => .ok text
  | other => mismatch other expected

/-- Any text. -/
def decodeString : Decoder String :=
  decodeTextAs "a string"

/-- A natural number below the limit; the name of its type appears in the error. -/
def decodeBelow (limit : Nat) (expected : String) : Decoder Nat
  | .number (.integer value) =>
      if 0 ≤ value ∧ value < limit then .ok value.toNat
      else .error (.invalidValue (describe (.number (.integer value))) expected)
  | other => mismatch other expected

/-- An unsigned number of 32 bits. -/
def decodeUInt32 (value : Json) : Except ShapeError UInt32 :=
  (decodeBelow UInt32.size "u32" value).map UInt32.ofNat

/-- A size, which is an unsigned number of 64 bits. -/
def decodeSize : Decoder Nat :=
  decodeBelow UInt64.size "usize"

/-- The items of a list, up to the first one that is refused. -/
def decodeItems {α : Type} (item : Decoder α) : List Json → Except ShapeError (List α)
  | [] => .ok []
  | first :: rest =>
      match item first with
      | .error error => .error error
      | .ok value =>
          match decodeItems item rest with
          | .error error => .error error
          | .ok values => .ok (value :: values)

/-- An array of values of one type. -/
def decodeList {α : Type} (item : Decoder α) : Decoder (List α)
  | .array items => decodeItems item items
  | other => mismatch other "a sequence"

/-- An optional value, where null stands for none. -/
def decodeOption {α : Type} (item : Decoder α) : Decoder (Option α)
  | .null => .ok none
  | other => (item other).map some

/-- The members of any object. -/
def decodeMap : Decoder (List (String × Json))
  | .object members => .ok members
  | other => mismatch other "a map"

/-- Nothing but null. -/
def decodeUnit : Decoder Unit
  | .null => .ok ()
  | other => mismatch other "unit"

/-- The alternative that goes by the name. -/
def variantNamed {α : Type} (known : List (String × α)) (name : String) :
    Except ShapeError α :=
  match known.find? fun entry => entry.1 == name with
  | some entry => .ok entry.2
  | none => .error (.unknownVariant name (known.map (·.1)))

/-- One of several named alternatives: its name, or an object with the name as its one
member and null for the value. -/
def decodeVariant {α : Type} (known : List (String × α)) : Decoder α
  | .string name => variantNamed known name
  | .object [(name, content)] =>
      match variantNamed known name with
      | .error error => .error error
      | .ok value => (decodeUnit content).map fun _ => value
  | .object _ => .error (.invalidValue "map" "map with a single key")
  | other => mismatch other "string or map"

/-- A field of a record that is being read into the draft `δ`. -/
structure Field (δ : Type) where
  name : String
  /-- Read the field's value into the draft. -/
  read : Json → δ → Except ShapeError δ
  /-- Whether an array may end before this field. -/
  optional : Bool

/-- How a record is read: its fields in order, the draft to start with, whether other
members are refused, and what a draft amounts to in the end. -/
structure Record (δ α : Type) where
  name : String
  fields : List (Field δ)
  strict : Bool
  start : δ
  finish : δ → Except ShapeError α

namespace Record

variable {δ α : Type}

/-- Read the members of an object in their order. -/
def readMembers (record : Record δ α) : List (String × Json) → δ → Except ShapeError δ
  | [], draft => .ok draft
  | (name, value) :: rest, draft =>
      match record.fields.find? fun field => field.name == name with
      | some field =>
          match field.read value draft with
          | .error error => .error error
          | .ok next => record.readMembers rest next
      | none =>
          if record.strict then
            .error (.unknownField name (record.fields.map (·.name)))
          else record.readMembers rest draft

/-- What an array of too few items should have been. -/
def expectedElements (record : Record δ α) : String :=
  let count := record.fields.length
  "struct " ++ record.name ++ " with " ++ toString count ++
    (if count = 1 then " element" else " elements")

/-- Read array items into the fields one after the other; `index` counts the fields
already read, and the items left over are returned. -/
def readItems (record : Record δ α) (index : Nat) :
    List (Field δ) → List Json → δ → Except ShapeError (δ × List Json)
  | [], items, draft => .ok (draft, items)
  | field :: fields, [], draft =>
      if field.optional then record.readItems (index + 1) fields [] draft
      else .error (.invalidLength index record.expectedElements)
  | field :: fields, item :: items, draft =>
      match field.read item draft with
      | .error error => .error error
      | .ok next => record.readItems (index + 1) fields items next

/-- Read a record from an object or from an array of its fields. -/
def decode (record : Record δ α) : Decoder α
  | .object members =>
      match record.readMembers members record.start with
      | .error error => .error error
      | .ok draft => record.finish draft
  | .array items =>
      match record.readItems 0 record.fields items record.start with
      | .error error => .error error
      | .ok (draft, []) => record.finish draft
      | .ok (_, _ :: _) => .error (.invalidLength items.length "fewer elements in array")
  | other => mismatch other ("struct " ++ record.name)

end Record

/-- The value of a field that must have been read. -/
def required {α : Type} (name : String) : Option α → Except ShapeError α
  | some value => .ok value
  | none => .error (.missingField name)

end ScriptAnalysis.Json
