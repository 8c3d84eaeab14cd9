import ScriptAnalysis.Json.Decode

/-!
# Positions

A line and a character inside it, both counted from zero; characters are Unicode scalar
values. Positions are ordered by line first. They are shown counted from one.
-/

namespace ScriptAnalysis

/-- A place in a script. -/
structure Position where
  line : UInt32
  /-- The number of characters before the place on its line. -/
  character : UInt32
  deriving DecidableEq, Repr

namespace Position

/-- The position with the given counts. -/
def ofNat (line character : Nat) : Position :=
  ⟨UInt32.ofNat line, UInt32.ofNat character⟩

/-- Line first, then character. -/
def atMost (left right : Position) : Bool :=
  left.line < right.line || (left.line == right.line && left.character ≤ right.character)

/-- Line and character, counted from one. -/
def text (position : Position) : String :=
  toString (position.line.toNat + 1) ++ ":" ++ toString (position.character.toNat + 1)

/-- The position as JSON. -/
def toJson (position : Position) : Json :=
  .object [("line", .nat position.line.toNat), ("ch", .nat position.character.toNat)]

/-- How a position is read: both fields must be there. -/
def record : Json.Record (Option UInt32 × Option UInt32) Position where
  name := "Position"
  fields :=
    [⟨"line", fun value draft =>
        (Json.decodeUInt32 value).map fun line => (some line, draft.2), false⟩,
      ⟨"ch", fun value draft =>
        (Json.decodeUInt32 value).map fun character => (draft.1, some character), false⟩]
  strict := false
  start := (none, none)
  finish draft :=
    match Json.required "line" draft.1, Json.required "ch" draft.2 with
    | .ok line, .ok character => .ok ⟨line, character⟩
    | .error error, _ => .error error
    | _, .error error => .error error

/-- Read a position from JSON. -/
def decode : Json.Decoder Position :=
  record.decode

end Position

end ScriptAnalysis
