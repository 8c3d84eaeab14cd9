import ScriptAnalysis.Decimal.Shortest

/-!
# JSON values

A `Json` value keeps the members of an object in the order in which they were put
there; `sorted` puts the members of every object in ascending order of their names. A
number is an integer or the 64 bits of a double.
-/

namespace ScriptAnalysis

/-- A JSON number: an integer, or a double given by its bits. -/
inductive Json.Number where
  | integer (value : Int)
  | float (bits : UInt64)
  deriving DecidableEq, Repr

/-- A JSON value. -/
inductive Json where
  | null
  | bool (value : Bool)
  | number (value : Json.Number)
  | string (value : String)
  | array (items : List Json)
  | object (members : List (String × Json))

namespace Json

/-- An integer value. -/
def int (value : Int) : Json :=
  .number (.integer value)

/-- A count. -/
def nat (value : Nat) : Json :=
  .number (.integer value)

/-- The member with the given name. -/
def member? (name : String) (members : List (String × Json)) : Option Json :=
  (members.find? fun entry => entry.1 == name).map (·.2)

/-- Put a member into a list that ascends by name. A member of the same name is
replaced. -/
def insertMember (name : String) (value : Json) :
    List (String × Json) → List (String × Json)
  | [] => [(name, value)]
  | (other, old) :: rest =>
      if name < other then (name, value) :: (other, old) :: rest
      else if name = other then (name, value) :: rest
      else (other, old) :: insertMember name value rest

/-- Members in ascending order of their names; of members with one name the last
counts. -/
def sortMembers (members : List (String × Json)) : List (String × Json) :=
  members.foldl (fun sorted entry => insertMember entry.1 entry.2 sorted) []

mutual

/-- The value with the members of every object in ascending order. -/
def sorted : Json → Json
  | .array items => .array (sortedItems items)
  | .object members => .object (sortMembers (sortedMembers members))
  | other => other

/-- Every item of an array sorted inside. -/
def sortedItems : List Json → List Json
  | [] => []
  | item :: rest => sorted item :: sortedItems rest

/-- Every member of an object sorted inside. -/
def sortedMembers : List (String × Json) → List (String × Json)
  | [] => []
  | (name, value) :: rest => (name, sorted value) :: sortedMembers rest

end

/-- The text of a finite double: at least one place after the point, an exponent from
`10 ^ 16` upwards and below `10 ^ -5`. -/
def finiteText (value : Decimal.Digits) : String :=
  let first := value.exponent + ((toString value.digits).length : Int)
  if 0 ≤ value.exponent && first ≤ 16 then Decimal.positional value ++ ".0"
  else if -5 < first && first ≤ 16 then Decimal.positional value
  else Decimal.scientific value

/-- The text of a double. What is not finite has no text of its own. -/
def floatText (bits : UInt64) : String :=
  let sign := if Decimal.isNegative bits then "-" else ""
  match Decimal.magnitude bits with
  | .zero => sign ++ "0.0"
  | .finite value => sign ++ finiteText (Decimal.shortest value)
  | .infinite => "null"
  | .undefined => "null"

/-- The text of a number. -/
def Number.text : Number → String
  | .integer value => toString value
  | .float bits => floatText bits

end Json

end ScriptAnalysis
