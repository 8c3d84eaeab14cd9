import ScriptAnalysis.Text.Cursor

/-!
# TOML values with their places

A document is read into a `Node` tree. Keys and values remember the bytes they were
written with, so that a complaint about the content can point at them. A table also
remembers how it came to be, because this decides what may still be added to it.
-/

namespace ScriptAnalysis.Toml

open ScriptAnalysis.Text (Span)

/-- A key and where it is written. -/
structure Key where
  text : String
  span : Span
  deriving DecidableEq, Repr

/-- A value without parts. -/
inductive Scalar where
  | string (text : String)
  | integer (value : Int)
  /-- A double, given by its bits. -/
  | float (bits : UInt64)
  | boolean (value : Bool)
  /-- A date, a time, or both, in its plain written form. -/
  | moment (text : String)
  deriving DecidableEq, Repr

/-- How a table came to be. -/
inductive TableForm where
  /-- By a header of its own, or as the document itself. -/
  | header
  /-- On the way to a header further down. -/
  | implied
  /-- On the way of a dotted key. -/
  | dotted
  /-- Between braces; nothing can be added. -/
  | inline
  deriving DecidableEq, Repr

/-- A value. -/
inductive Node where
  | scalar (span : Span) (value : Scalar)
  | array (span : Span) (items : List Node)
  /-- A table; only those with a header or braces have a place of their own. -/
  | table (form : TableForm) (span : Option Span) (members : List (Key × Node))
  /-- The tables of one double-bracketed header name. -/
  | tables (items : List Node)

/-- The members of a table in the order in which they were first written. -/
abbrev Members := List (Key × Node)

namespace Node

/-- The place of a node other than a group of tables. -/
def ownSpan? : Node → Option Span
  | .scalar span _ => some span
  | .array span _ => some span
  | .table _ span _ => span
  | .tables _ => none

/-- Where the value stands; a group of tables reaches from its first to its last. -/
def span? : Node → Option Span
  | .tables items =>
      match items.head?.bind ownSpan?, items.getLast?.bind ownSpan? with
      | some first, some last => some ⟨first.start, last.stop⟩
      | _, _ => none
  | other => other.ownSpan?

end Node

namespace Members

/-- The value under a key. -/
def find? (members : Members) (name : String) : Option Node :=
  (List.find? (fun entry => entry.1.text == name) members).map (·.2)

/-- Replace the value under a key. -/
def replace (members : Members) (name : String) (value : Node) : Members :=
  members.map fun entry => if entry.1.text = name then (entry.1, value) else entry

/-- Remove a key. -/
def remove (members : Members) (name : String) : Members :=
  members.filter fun entry => entry.1.text != name

end Members

/-- Go down a path of keys and act on the table that is reached. Missing tables are
made on the way, as dotted ones if the path is a dotted key. A group of tables is
entered at its last one. A value is in the way, and so is a table with a header of its
own if the path is a dotted key. -/
def descend {β : Type} (isDotted : Bool)
    (act : TableForm → Members → Option (Members × β)) :
    List Key → TableForm → Members → Option (Members × β)
  | [], form, members => act form members
  | key :: path, _, members =>
      match members.find? key.text with
      | none =>
          let form := if isDotted then TableForm.dotted else TableForm.implied
          match descend isDotted act path form [] with
          | some (inner, result) => some (members ++ [(key, .table form none inner)], result)
          | none => none
      | some (.table form span inner) =>
          if form = .inline || (isDotted && form = .header) then none
          else
            match descend isDotted act path form inner with
            | some (inner, result) =>
                some (members.replace key.text (.table form span inner), result)
            | none => none
      | some (.tables items) =>
          match items.getLast? with
          | some (.table form span inner) =>
              match descend isDotted act path form inner with
              | some (inner, result) =>
                  some (members.replace key.text
                    (.tables (items.dropLast ++ [.table form span inner])), result)
              | none => none
          | _ => none
      | some _ => none

/-- Add a value under a key, which may be dotted. The key must be new, and a dotted key
cannot add to a table that was made in another way. -/
def insertValue (path : List Key) (key : Key) (value : Node) (form : TableForm)
    (members : Members) : Option Members :=
  let add := fun (form : TableForm) (members : Members) =>
    if (form == .dotted) == path.isEmpty then none
    else if (members.find? key.text).isSome then none
    else some (members ++ [(key, value)], ())
  (descend true add path form members).map (·.1)

/-- A document while it is being read: what is finished, and the table that is open. -/
structure Draft where
  finished : Members
  /-- The header of the open table; the document itself has the empty path. -/
  path : List Key
  /-- Whether the open table is one of a group. -/
  grouped : Bool
  span : Option Span
  members : Members

namespace Draft

/-- The draft before the first line. -/
def start : Draft := ⟨[], [], false, none, []⟩

/-- Put the open table where its header says. -/
def close (draft : Draft) : Option Members :=
  match draft.path.getLast? with
  | none => some draft.members
  | some key =>
      let table := Node.table .header draft.span draft.members
      let put := fun (_ : TableForm) (members : Members) =>
        if draft.grouped then
          match members.find? key.text with
          | some (.tables items) =>
              some (members.replace key.text (.tables (items ++ [table])), ())
          | _ => none
        else some (members ++ [(key, table)], ())
      (descend false put draft.path.dropLast .header draft.finished).map (·.1)

/-- Open the table of a header. The table may exist already if it was only implied; it
then moves to the place of its header. -/
def openTable (draft : Draft) (path : List Key) (span : Span) : Option Draft :=
  match draft.close, path.getLast? with
  | some finished, some key =>
      let take := fun (_ : TableForm) (members : Members) =>
        match members.find? key.text with
        | none => some (members, [])
        | some (.table .implied _ inner) => some (members.remove key.text, inner)
        | some _ => none
      (descend false take path.dropLast .header finished).map fun (finished, inner) =>
        ⟨finished, path, false, some span, inner⟩
  | _, _ => none

/-- Open one more table of a group. -/
def openGrouped (draft : Draft) (path : List Key) (span : Span) : Option Draft :=
  match draft.close, path.getLast? with
  | some finished, some key =>
      let join := fun (_ : TableForm) (members : Members) =>
        match members.find? key.text with
        | none => some (members ++ [(key, Node.tables [])], ())
        | some (.tables _) => some (members, ())
        | some _ => none
      (descend false join path.dropLast .header finished).map fun (finished, _) =>
        ⟨finished, path, true, some span, []⟩
  | _, _ => none

/-- Add a line with a key and a value to the open table. The table then reaches from its
header to the end of the value. -/
def addValue (draft : Draft) (path : List Key) (key : Key) (value : Node) : Option Draft :=
  (insertValue path key value .header draft.members).map fun members =>
    { draft with
      members := members
      span :=
        match draft.span, value.span? with
        | some table, some last => some ⟨table.start, last.stop⟩
        | span, _ => span }

end Draft

end ScriptAnalysis.Toml
