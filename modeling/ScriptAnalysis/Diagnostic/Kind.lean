import ScriptAnalysis.Json.Decode

/-!
# Kinds and codes of diagnostics

A `DiagnosticKind` says which stage found a diagnostic; the kinds are ordered as the
stages run. A `DiagnosticCode` is the number that compilers report.
-/

namespace ScriptAnalysis

/-- The stage that found a diagnostic. -/
inductive DiagnosticKind where
  | configuration
  | declaration
  | semantic
  | syntactic
  | lint
  deriving DecidableEq, Repr

namespace DiagnosticKind

/-- Every kind with its name, in the order of the stages. -/
def named : List (String × DiagnosticKind) :=
  [("configuration", .configuration), ("declaration", .declaration), ("semantic", .semantic),
    ("syntactic", .syntactic), ("lint", .lint)]

/-- The name of the kind. -/
def name : DiagnosticKind → String
  | .configuration => "configuration"
  | .declaration => "declaration"
  | .semantic => "semantic"
  | .syntactic => "syntactic"
  | .lint => "lint"

/-- The place of the kind among the stages. -/
def stage : DiagnosticKind → Nat
  | .configuration => 0
  | .declaration => 1
  | .semantic => 2
  | .syntactic => 3
  | .lint => 4

/-- Whether messages of this kind carry a compiler code. -/
def isCompiler (kind : DiagnosticKind) : Bool :=
  kind != .lint

/-- The kind as JSON. -/
def toJson (kind : DiagnosticKind) : Json :=
  .string kind.name

/-- Read a kind from JSON. -/
def decode : Json.Decoder DiagnosticKind :=
  Json.decodeVariant named

end DiagnosticKind

/-- The number of a compiler diagnostic. -/
structure DiagnosticCode where
  number : UInt32
  deriving DecidableEq, Repr

namespace DiagnosticCode

/-- A configuration file could not be parsed. -/
def configParse : DiagnosticCode := ⟨5014⟩

/-- A listed file does not exist. -/
def fileNotFound : DiagnosticCode := ⟨6053⟩

/-- The code as it is shown. -/
def text (code : DiagnosticCode) : String :=
  "TS" ++ toString code.number.toNat

/-- A message with the code before it. -/
def label (code : DiagnosticCode) (message : String) : String :=
  code.text ++ ": " ++ message

/-- Read a code from JSON. -/
def decode (value : Json) : Except ShapeError DiagnosticCode :=
  (Json.decodeUInt32 value).map DiagnosticCode.mk

end DiagnosticCode

end ScriptAnalysis
