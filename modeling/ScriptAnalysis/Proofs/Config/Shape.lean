import Mathlib.Tactic.MkIffOfInductiveProp
import ScriptAnalysis.Config.Project
import ScriptAnalysis.Proofs.Toml.Meaning

/-!
# The shape of a configuration

What a configuration file says depends on the value of its document alone (`Describes`), wherever
the parts stand and however they are written. Sections that are missing are as in
`ProjectConfig.standard` and `LintConfig.standard`.
-/

namespace ScriptAnalysis.ProjectConfig

open ScriptAnalysis.Toml (Scalar Value)

/-! ### Fields -/

/-- What is found under a name fits and gives the result; if nothing is, the result is the other
one. -/
def Field {α : Type} (fits : Value → α → Prop) (absent : α) (found : Option Value) (result : α) :
    Prop :=
  match found with
  | some value => fits value result
  | none => result = absent

/-- An array of strings. -/
def IsTexts (value : Value) (texts : List String) : Prop :=
  value = .array (texts.map fun text => .scalar (.string text))

/-- An integer from zero upwards. -/
def IsSize (value : Value) (size : Nat) : Prop :=
  value = .scalar (.integer size)

/-- The members of a table. A moment passes for a table with one private key. -/
def members? : Value → Option (List (String × Value))
  | .table members => some members
  | .scalar (.moment text) => some [(momentKey, .scalar (.string text))]
  | _ => none

/-! ### The lint section -/

/-- Members that set fields of a lint section: each is a field, and what is not set is as before. -/
@[mk_iff]
structure SetsLint (start : LintConfig) (members : List (String × Value)) (lint : LintConfig) :
    Prop where
  known : ∀ entry ∈ members, entry.1 = "allow" ∨ entry.1 = "max_line_length"
  allow : Field IsTexts start.allow (members.lookup "allow") lint.allow
  limit : Field IsSize start.maxLineLength (members.lookup "max_line_length") lint.maxLineLength

/-- The fields of a lint section one after the other; further items are not looked at. -/
@[mk_iff]
structure ListsLint (items : List Value) (lint : LintConfig) : Prop where
  allow : Field IsTexts LintConfig.standard.allow items[0]? lint.allow
  limit : Field IsSize LintConfig.standard.maxLineLength items[1]? lint.maxLineLength

/-- A lint section: a table of its fields or an array of them. -/
inductive IsLint (value : Value) (lint : LintConfig) : Prop where
  | table {members : List (String × Value)} (table : members? value = some members)
      (sets : SetsLint LintConfig.standard members lint)
  | array {items : List Value} (array : value = .array items) (lists : ListsLint items lint)

/-! ### The compiler section -/

/-- The moment whose text a value is. -/
def statedMoment? : Value → Option Value
  | .scalar (.string text) =>
      (Toml.momentOfText? text).map fun moment => .scalar (.moment moment)
  | _ => none

mutual

/-- The value as it is handed on: a table whose first key is the private one must hold there the
text of a moment, and it is handed on as this moment. -/
def presented? : Value → Option Value
  | .scalar value => some (.scalar value)
  | .array items => (presentedItems? items).map .array
  | .table [] => some (.table [])
  | .table ((name, value) :: rest) =>
      if name = momentKey then statedMoment? value
      else (presentedMembers? ((name, value) :: rest)).map .table

/-- Every item as it is handed on. -/
def presentedItems? : List Value → Option (List Value)
  | [] => some []
  | first :: rest =>
      (presented? first).bind fun value => (presentedItems? rest).map (value :: ·)

/-- Every member as it is handed on, under its own name. -/
def presentedMembers? : List (String × Value) → Option (List (String × Value))
  | [] => some []
  | (name, value) :: rest =>
      (presented? value).bind fun value => (presentedMembers? rest).map ((name, value) :: ·)

end

/-- A value without parts as JSON. What is no finite number is null. -/
def scalarSetting : Scalar → Json
  | .string text => .string text
  | .integer value => .int value
  | .float bits =>
      match Decimal.magnitude bits with
      | .infinite => .null
      | .undefined => .null
      | _ => .number (.float bits)
  | .boolean value => .bool value
  | .moment text => momentSetting text

mutual

/-- The value as JSON, with the members of tables in ascending order. -/
def setting : Value → Json
  | .scalar value => scalarSetting value
  | .array items => .array (settingItems items)
  | .table members => .object (Json.sortMembers (settingMembers members))

/-- Every item as JSON. -/
def settingItems : List Value → List Json
  | [] => []
  | first :: rest => setting first :: settingItems rest

/-- Every member as JSON, under its own name. -/
def settingMembers : List (String × Value) → List (String × Json)
  | [] => []
  | (name, value) :: rest => (name, setting value) :: settingMembers rest

end

/-- A compiler section: the members of a table as JSON. -/
def IsSettings (value : Value) (settings : CompilationSettings) : Prop :=
  ∃ members, members? value = some members ∧
    ∃ presented, presentedMembers? members = some presented ∧
      settings.members = Json.sortMembers (settingMembers presented)

/-! ### The document -/

/-- Members that set fields of a configuration: each is a field, and what is not set is as
before. -/
@[mk_iff]
structure Sets (start : ProjectConfig) (members : List (String × Value)) (config : ProjectConfig) :
    Prop where
  known : ∀ entry ∈ members, entry.1 = "files" ∨ entry.1 = "compiler" ∨ entry.1 = "lint"
  files : Field IsTexts start.files (members.lookup "files") config.files
  compiler : Field IsSettings start.compiler (members.lookup "compiler") config.compiler
  lint : Field (fun value lint => ∃ given, IsLint value given ∧ lint = some given) start.lint
    (members.lookup "lint") config.lint

/-- The text is a document that describes the configuration; what it does not set is standard. -/
def Describes (text : String) (config : ProjectConfig) : Prop :=
  ∃ document, Toml.valueOf? text = some document ∧ Sets standard document config

end ScriptAnalysis.ProjectConfig
