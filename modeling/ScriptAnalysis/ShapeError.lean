/-!
# Values of the wrong shape

The problems that can arise when a value that was read from a text is taken for a value
of some type, and the wording of each.
-/

namespace ScriptAnalysis

/-- Why a value is not one of the wanted type. -/
inductive ShapeError where
  /-- A value of another type was found. -/
  | invalidType (found expected : String)
  /-- The type fits but the value does not. -/
  | invalidValue (found expected : String)
  /-- An array has too few or too many items. -/
  | invalidLength (length : Nat) (expected : String)
  | missingField (name : String)
  | duplicateField (name : String)
  | unknownField (name : String) (known : List String)
  | unknownVariant (name : String) (known : List String)
  /-- The value is refused by the reader of its own format. -/
  | refused (reason : String)
  deriving DecidableEq, Repr

namespace ShapeError

/-- A text in backquotes. -/
def ticked (text : String) : String :=
  let mark := String.ofList [Char.ofNat 96]
  mark ++ text ++ mark

/-- Names in backquotes: two are joined by `or`, more are listed. -/
def oneOf (known : List String) : String :=
  match known with
  | [] => "there are no fields"
  | [only] => "expected " ++ ticked only
  | [first, second] => "expected " ++ ticked first ++ " or " ++ ticked second
  | many => "expected one of " ++ String.intercalate ", " (many.map ticked)

/-- The wording of each problem. -/
def message : ShapeError → String
  | .invalidType found expected => "invalid type: " ++ found ++ ", expected " ++ expected
  | .invalidValue found expected => "invalid value: " ++ found ++ ", expected " ++ expected
  | .invalidLength length expected =>
      "invalid length " ++ toString length ++ ", expected " ++ expected
  | .missingField name => "missing field " ++ ticked name
  | .duplicateField name => "duplicate field " ++ ticked name
  | .unknownField name known => "unknown field " ++ ticked name ++ ", " ++ oneOf known
  | .unknownVariant name known => "unknown variant " ++ ticked name ++ ", " ++ oneOf known
  | .refused reason => reason

end ShapeError

end ScriptAnalysis
