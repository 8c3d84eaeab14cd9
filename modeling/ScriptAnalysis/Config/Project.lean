import ScriptAnalysis.Config.Settings
import ScriptAnalysis.Text.Blank
import ScriptAnalysis.Toml.Document
import ScriptAnalysis.Toml.Excerpt

/-!
# Project configurations

`ProjectConfig.ofText` reads the text of a configuration file: a TOML document with the
optional sections `files`, `compiler` and `lint`. Problems with the shape point at the
key or value they are about, and the first one in document order is reported. A
configuration of the right shape must also name no blank file and no limit of zero.
-/

namespace ScriptAnalysis

/-- The content of a configuration file. -/
structure ProjectConfig where
  /-- Root files, relative to the project directory. -/
  files : List String
  compiler : CompilationSettings
  lint : Option LintConfig

/-- Why a configuration cannot be used. -/
inductive ConfigError where
  /-- The text is no TOML document. What the parser says of it is left open. -/
  | notADocument
  /-- The document has another shape; the excerpt points at the place. -/
  | wrongShape (excerpt : String)
  /-- A listed file is blank. -/
  | emptyPath
  /-- The limit for the length of lines is zero. -/
  | limitNotPositive
  deriving DecidableEq, Repr

namespace ConfigError

/-- Whether the text could not be parsed, rather than violating a rule afterwards. -/
def isParseFailure : ConfigError → Bool
  | .notADocument => true
  | .wrongShape _ => true
  | .emptyPath => false
  | .limitNotPositive => false

/-- What is wrong. -/
def detail : ConfigError → String
  | .notADocument => Toml.syntaxError
  | .wrongShape excerpt => excerpt
  | .emptyPath => "files must not contain empty paths"
  | .limitNotPositive => "lint.max_line_length must be positive"

/-- What is wrong, and at which stage it was found. -/
def message (error : ConfigError) : String :=
  if error.isParseFailure then "failed to parse configuration: " ++ error.detail
  else "validation error: " ++ error.detail

end ConfigError

namespace ProjectConfig

open ScriptAnalysis.Text (Span)
open ScriptAnalysis.Toml (Node Key Scalar)

/-- A problem with the shape, and the bytes it is about once they are known. -/
structure Complaint where
  cause : ShapeError
  span : Option Span
  deriving DecidableEq, Repr

/-- The key under which a moment is presented to readers of tables. -/
def momentKey : String := "$__toml_private_datetime"

/-- A finite double with its sign, in positional layout and with a point. -/
def floatText (bits : UInt64) : String :=
  let sign := if Decimal.isNegative bits then "-" else ""
  match Decimal.magnitude bits with
  | .zero => sign ++ "0.0"
  | .finite value =>
      let digits := Decimal.shortest value
      let text := Decimal.positional digits
      sign ++ text ++ (if 0 ≤ digits.exponent then ".0" else "")
  | .infinite => sign ++ "inf"
  | .undefined => "NaN"

/-- What a message calls the value that was found. A moment passes for a map. -/
def describe : Node → String
  | .scalar _ (.string text) => "string " ++ Text.quoted text
  | .scalar _ (.integer value) => "integer " ++ ShapeError.ticked (toString value)
  | .scalar _ (.float bits) => "floating point " ++ ShapeError.ticked (floatText bits)
  | .scalar _ (.boolean value) =>
      "boolean " ++ ShapeError.ticked (if value then "true" else "false")
  | .scalar _ (.moment _) => "map"
  | .array _ _ => "sequence"
  | .table _ _ _ => "map"
  | .tables _ => "sequence"

/-- The complaint about a value of another type. -/
def mismatch {α : Type} (found : Node) (expected : String) : Except Complaint α :=
  .error ⟨.invalidType (describe found) expected, found.span?⟩

/-- Let a complaint that has no place yet be about the given bytes. -/
def located {α : Type} (span : Option Span) : Except Complaint α → Except Complaint α
  | .error complaint => .error { complaint with span := complaint.span <|> span }
  | .ok value => .ok value

/-- Any text. -/
def readText : Node → Except Complaint String
  | .scalar _ (.string text) => .ok text
  | other => mismatch other "a string"

/-- Texts one after the other. -/
def readTextItems : List Node → Except Complaint (List String)
  | [] => .ok []
  | first :: rest =>
      match readText first with
      | .error complaint => .error complaint
      | .ok text =>
          match readTextItems rest with
          | .error complaint => .error complaint
          | .ok texts => .ok (text :: texts)

/-- A list of texts. -/
def readTexts (node : Node) : Except Complaint (List String) :=
  match node with
  | .array _ items => located node.span? (readTextItems items)
  | .tables items => located node.span? (readTextItems items)
  | other => mismatch other "a sequence"

/-- A size. -/
def readSize : Node → Except Complaint Nat
  | .scalar span (.integer value) =>
      if 0 ≤ value then .ok value.toNat
      else .error ⟨.invalidValue (describe (.scalar span (.integer value))) "usize", some span⟩
  | other => mismatch other "usize"

/-- The members of the lint section in their order. -/
def readLintMembers : Toml.Members → LintConfig → Except Complaint LintConfig
  | [], config => .ok config
  | (key, value) :: rest, config =>
      let place := value.span? <|> some key.span
      if key.text = "allow" then
        match located place (readTexts value) with
        | .ok allow => readLintMembers rest { config with allow := allow }
        | .error complaint => .error complaint
      else if key.text = "max_line_length" then
        match located place (readSize value) with
        | .ok limit => readLintMembers rest { config with maxLineLength := limit }
        | .error complaint => .error complaint
      else .error ⟨.unknownField key.text ["allow", "max_line_length"], some key.span⟩

/-- The lint section as an array of its fields; further items are not looked at. -/
def readLintItems : List Node → Except Complaint LintConfig
  | [] => .ok LintConfig.standard
  | [allow] => (readTexts allow).map fun allow => { LintConfig.standard with allow := allow }
  | allow :: limit :: _ =>
      match readTexts allow with
      | .error complaint => .error complaint
      | .ok allow => (readSize limit).map fun limit => ⟨allow, limit⟩

/-- The lint section. -/
def readLint (node : Node) : Except Complaint LintConfig :=
  match node with
  | .table _ _ members => located node.span? (readLintMembers members LintConfig.standard)
  | .array _ items => located node.span? (readLintItems items)
  | .tables items => located node.span? (readLintItems items)
  | .scalar span (.moment _) =>
      .error ⟨.unknownField momentKey ["allow", "max_line_length"], some span⟩
  | other => mismatch other "struct LintConfig"

/-- A moment as a setting. -/
def momentSetting (text : String) : Json :=
  .object [(momentKey, .string text)]

/-- The moment that a table stands for whose first key says so. -/
def readMoment : Node → Except Complaint Json
  | .scalar span (.string text) =>
      match Toml.momentOfText? text with
      | some moment => .ok (momentSetting moment)
      | none => .error ⟨.refused Toml.syntaxError, some span⟩
  | other => mismatch other "string containing a datetime"

mutual

/-- A value as a setting. Doubles that are not finite become null. -/
def readSetting (node : Node) : Except Complaint Json :=
  match node with
  | .scalar _ (.string text) => .ok (.string text)
  | .scalar _ (.integer value) => .ok (.int value)
  | .scalar _ (.boolean value) => .ok (.bool value)
  | .scalar _ (.moment text) => .ok (momentSetting text)
  | .scalar _ (.float bits) =>
      match Decimal.magnitude bits with
      | .infinite => .ok .null
      | .undefined => .ok .null
      | _ => .ok (.number (.float bits))
  | .array _ items => located node.span? ((readSettingItems items).map Json.array)
  | .tables items => located node.span? ((readSettingItems items).map Json.array)
  | .table _ _ ((key, value) :: rest) =>
      if key.text = momentKey then
        located (node.span? <|> value.span? <|> some key.span) (readMoment value)
      else
        located node.span?
          ((readSettingMembers ((key, value) :: rest)).map fun members =>
            .object (Json.sortMembers members))
  | .table _ _ [] => .ok (.object [])

/-- Values one after the other. -/
def readSettingItems : List Node → Except Complaint (List Json)
  | [] => .ok []
  | first :: rest =>
      match readSetting first with
      | .error complaint => .error complaint
      | .ok value =>
          match readSettingItems rest with
          | .error complaint => .error complaint
          | .ok values => .ok (value :: values)

/-- Members one after the other. -/
def readSettingMembers : List (Key × Node) → Except Complaint (List (String × Json))
  | [] => .ok []
  | (key, node) :: rest =>
      match located (node.span? <|> some key.span) (readSetting node) with
      | .error complaint => .error complaint
      | .ok value =>
          match readSettingMembers rest with
          | .error complaint => .error complaint
          | .ok values => .ok ((key.text, value) :: values)

end

/-- The compiler section. -/
def readCompiler (node : Node) : Except Complaint CompilationSettings :=
  match node with
  | .table _ _ members =>
      located node.span?
        ((readSettingMembers members).map fun members => ⟨Json.sortMembers members⟩)
  | .scalar _ (.moment text) => .ok ⟨[(momentKey, .string text)]⟩
  | other => mismatch other "a map"

/-- The configuration that sets nothing. -/
def standard : ProjectConfig := ⟨[], CompilationSettings.empty, none⟩

/-- The members of a document in their order. -/
def readMembers : Toml.Members → ProjectConfig → Except Complaint ProjectConfig
  | [], config => .ok config
  | (key, value) :: rest, config =>
      let place := value.span? <|> some key.span
      if key.text = "files" then
        match located place (readTexts value) with
        | .ok files => readMembers rest { config with files := files }
        | .error complaint => .error complaint
      else if key.text = "compiler" then
        match located place (readCompiler value) with
        | .ok compiler => readMembers rest { config with compiler := compiler }
        | .error complaint => .error complaint
      else if key.text = "lint" then
        match located place (readLint value) with
        | .ok lint => readMembers rest { config with lint := some lint }
        | .error complaint => .error complaint
      else .error ⟨.unknownField key.text ["files", "compiler", "lint"], some key.span⟩

/-- The error that a complaint about a text amounts to. -/
def errorOf (text : String) (complaint : Complaint) : ConfigError :=
  match complaint.cause, complaint.span with
  | .refused _, _ => .notADocument
  | cause, some span => .wrongShape (Toml.excerpt text span cause.message)
  | cause, none => .wrongShape (cause.message ++ "\n")

/-- Check the rules that a configuration of the right shape must keep. -/
def validate (config : ProjectConfig) : Except ConfigError ProjectConfig :=
  if config.files.any Text.allBlank then .error .emptyPath
  else
    match config.lint with
    | some lint => if lint.maxLineLength = 0 then .error .limitNotPositive else .ok config
    | none => .ok config

/-- Read the text of a configuration file. -/
def ofText (text : String) : Except ConfigError ProjectConfig :=
  match Toml.documentOfText? text with
  | none => .error .notADocument
  | some members =>
      match readMembers members standard with
      | .error complaint => .error (errorOf text complaint)
      | .ok config => validate config

end ProjectConfig

end ScriptAnalysis
