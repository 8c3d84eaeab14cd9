import ScriptAnalysis.Config.Settings

/-!
# Kinds of scripts and default libraries

The extension of a file decides its language variant. The default library belongs to
the language version that a project targets, and is always found in the toolchain.
-/

namespace ScriptAnalysis

/-- The characters with ASCII capitals made small. -/
def lowered (text : String) : String :=
  String.ofList (text.toList.map Char.toLower)

/-- The language variant of a script. -/
inductive ScriptKind where
  | unknown
  | js
  | jsx
  | ts
  | tsx
  deriving DecidableEq, Repr

namespace ScriptKind

/-- The kind that belongs to an extension, in either case. -/
def ofExtension (extension : String) : ScriptKind :=
  let small := lowered extension
  if small = "js" then .js
  else if small = "jsx" then .jsx
  else if small = "ts" then .ts
  else if small = "tsx" then .tsx
  else .unknown

/-- The kind of a file. -/
def ofPath (path : SourcePath) : ScriptKind :=
  match path.extension with
  | some extension => ofExtension extension
  | none => .unknown

/-- The name of the kind. -/
def name : ScriptKind → String
  | .unknown => "unknown"
  | .js => "js"
  | .jsx => "jsx"
  | .ts => "ts"
  | .tsx => "tsx"

end ScriptKind

/-- Whether an engine takes the file as a root script: its path is written with `.ts` or
`.tsx` at the end, in small letters. -/
def SourcePath.isRootScript (path : SourcePath) : Bool :=
  ['.', 't', 's'].isSuffixOf path.text.toList || ['.', 't', 's', 'x'].isSuffixOf path.text.toList

namespace DefaultLibrary

/-- The value of a run of digits with an optional plus sign before it. -/
def readYear (digits : List Char) : Option Nat :=
  let digits :=
    match digits with
    | '+' :: rest => rest
    | other => other
  if digits.isEmpty || !digits.all Char.isDigit then none
  else some (digits.foldl (fun value c => value * 10 + (c.toNat - 48)) 0)

/-- Whether the target names a year from 2016 on, in 16 bits. -/
def isYearly (target : String) : Bool :=
  match target.toList with
  | 'e' :: 's' :: digits =>
      match readYear digits with
      | some year => 2016 ≤ year && year < UInt16.size
      | none => false
  | _ => false

/-- The file name of the library for a target. -/
def fileName (target : Option String) : String :=
  let target := lowered (target.getD "")
  if target = "es6" || target = "es2015" then "lib.es6.d.ts"
  else if target = "esnext" then "lib.esnext.full.d.ts"
  else if isYearly target then "lib." ++ target ++ ".full.d.ts"
  else "lib.d.ts"

/-- The library for a target in the toolchain's directory. -/
def path (directory : SourcePath) (target : Option String) : SourcePath :=
  directory.join ⟨fileName target⟩

end DefaultLibrary

end ScriptAnalysis
