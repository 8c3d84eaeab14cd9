import ScriptAnalysis.Json.Decode

/-!
# Message chains

A message with further messages that explain it, each with explanations of its own.
`flatten` writes a chain in one text, two blanks deeper for every level.
-/

namespace ScriptAnalysis

/-- A message and the messages one level below it. -/
inductive MessageChain where
  | link (text : String) (next : List MessageChain)

namespace MessageChain

/-- The text of the first message. -/
def text : MessageChain → String
  | .link text _ => text

/-- The messages one level below. -/
def next : MessageChain → List MessageChain
  | .link _ next => next

/-- A message without explanation. -/
def single (text : String) : MessageChain :=
  .link text []

/-- What stands before a message: nothing at the first level, and otherwise a break and
two blanks for each level. -/
def indent (newLine : String) (depth : Nat) : String :=
  if depth = 0 then "" else newLine ++ String.ofList (List.replicate (2 * depth) ' ')

mutual

/-- The chain in one text, where its first message is at the given level. -/
def flattenAt (newLine : String) (depth : Nat) : MessageChain → String
  | .link text next => indent newLine depth ++ text ++ flattenAll newLine (depth + 1) next

/-- Chains one after the other, all at the given level. -/
def flattenAll (newLine : String) (depth : Nat) : List MessageChain → String
  | [] => ""
  | first :: rest => flattenAt newLine depth first ++ flattenAll newLine depth rest

end

/-- The chain in one text. -/
def flatten (chain : MessageChain) (newLine : String) : String :=
  chain.flattenAt newLine 0

mutual

/-- The chain as JSON; an empty list of explanations is left out. -/
def toJson : MessageChain → Json
  | .link text [] => .object [("text", .string text)]
  | .link text (first :: rest) =>
      .object [("text", .string text), ("next", .array (toJson first :: listToJson rest))]

/-- Several chains as JSON. -/
def listToJson : List MessageChain → List Json
  | [] => []
  | first :: rest => toJson first :: listToJson rest

end

/-- How a chain is read, given how the chains below it are. -/
def record (inner : Json.Decoder MessageChain) :
    Json.Record (Option String × List MessageChain) MessageChain where
  name := "MessageChain"
  fields :=
    [⟨"text", fun value draft =>
        (Json.decodeString value).map fun text => (some text, draft.2), false⟩,
      ⟨"next", fun value draft =>
        (Json.decodeList inner value).map fun next => (draft.1, next), true⟩]
  strict := false
  start := (none, [])
  finish draft := (Json.required "text" draft.1).map fun text => .link text draft.2

/-- Read a chain of at most `depth` levels. -/
def decodeWithin : Nat → Json.Decoder MessageChain
  | 0, value => Json.mismatch value "struct MessageChain"
  | depth + 1, value => (record (decodeWithin depth)).decode value

end MessageChain

namespace Json

mutual

/-- The number of levels of arrays and objects. -/
def nesting : Json → Nat
  | .array items => itemsNesting items + 1
  | .object members => membersNesting members + 1
  | _ => 0

/-- The greatest number of levels among the items. -/
def itemsNesting : List Json → Nat
  | [] => 0
  | item :: rest => max item.nesting (itemsNesting rest)

/-- The greatest number of levels among the members. -/
def membersNesting : List (String × Json) → Nat
  | [] => 0
  | (_, value) :: rest => max value.nesting (membersNesting rest)

end

end Json

namespace MessageChain

/-- Read a chain from JSON. Every level of the chain takes a level of the value. -/
def decode (value : Json) : Except ShapeError MessageChain :=
  decodeWithin (value.nesting + 1) value

end MessageChain

end ScriptAnalysis
