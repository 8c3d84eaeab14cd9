import ScriptAnalysis.Config.Settings
import ScriptAnalysis.ContentHash
import ScriptAnalysis.Proofs.Json.Record
import ScriptAnalysis.Service.Notification
import ScriptAnalysis.Service.Pipeline

/-!
# Types on the wire

Every type that is written as JSON is read back from it. A record is read from its members as they
are written and as they stand in order; what the members hold enters only through the decoders of
its fields. Parts that were left out come back: a position, a location that is null, the messages
below a message. All types together are `Json.wire_types_round_trip`.
-/

namespace ScriptAnalysis

open Json (Survives)

/-! ### Positions, diagnostics and reports -/

namespace Position

variable {line character : UInt32} {first second : Json}

theorem decode_parts (readsLine : Json.decodeUInt32 first = .ok line)
    (readsCharacter : Json.decodeUInt32 second = .ok character) :
    decode (.object [("line", first), ("ch", second)]) = .ok ⟨line, character⟩ ∧
      decode (.object [("ch", second), ("line", first)]) = .ok ⟨line, character⟩ := by
  simp [decode, record, Json.Record.decode, Json.Record.readMembers, readsLine, readsCharacter,
    Except.map, Json.required]

theorem survives (position : Position) : Survives toJson decode position := by
  obtain ⟨line, character⟩ := position
  obtain ⟨written, swapped⟩ := decode_parts (Json.survives_uint32 line).written
    (Json.survives_uint32 character).written
  refine ⟨written, ?_⟩
  rw [toJson, Json.sorted_object_of_perm (.swap ..)
    (Json.ascending_of_names ["ch", "line"] (by decide) rfl)]
  exact swapped

end Position

namespace Diagnostic

variable {kind : DiagnosticKind} {message : String} {position : Position} {place : Json}

theorem decode_kind (kind : DiagnosticKind) : DiagnosticKind.decode kind.toJson = .ok kind := by
  cases kind <;> rfl

theorem decode_parts (readsPlace : Json.decodeOption Position.decode place = .ok (some position)) :
    decode (.object [("kind", kind.toJson), ("message", .string message), ("pos", place)]) =
      .ok ⟨kind, message, some position⟩ := by
  simp [decode, record, Json.Record.decode, Json.Record.readMembers, decode_kind,
    Json.decodeString, Json.decodeTextAs, readsPlace, Except.map, Json.required]

theorem decode_pair (kind : DiagnosticKind) (message : String) :
    decode (.object [("kind", kind.toJson), ("message", .string message)]) =
      .ok ⟨kind, message, none⟩ := by
  simp [decode, record, Json.Record.decode, Json.Record.readMembers, decode_kind,
    Json.decodeString, Json.decodeTextAs, Except.map, Json.required]

/-- A position that is left out is none again. -/
theorem survives (diagnostic : Diagnostic) : Survives toJson decode diagnostic := by
  obtain ⟨kind, message, position⟩ := diagnostic
  cases position with
  | none =>
      refine ⟨decode_pair kind message, ?_⟩
      rw [toJson, Json.sorted_object_of_perm (.refl _)
        (Json.ascending_of_names ["kind", "message"] (by decide) rfl)]
      exact decode_pair kind message
  | some position =>
      obtain ⟨written, ordered⟩ := position.survives.option rfl
      refine ⟨decode_parts written, ?_⟩
      rw [toJson, Json.sorted_object_of_perm (.refl _)
        (Json.ascending_of_names ["kind", "message", "pos"] (by decide) rfl)]
      exact decode_parts ordered

end Diagnostic

namespace Report

variable {errors : List Diagnostic} {items : Json}

theorem decode_part (reads : Json.decodeList Diagnostic.decode items = .ok errors) :
    decode (.object [("errors", items)]) = .ok ⟨errors⟩ := by
  simp [decode, record, Json.Record.decode, Json.Record.readMembers, reads, Except.map,
    Json.required]

theorem survives (report : Report) : Survives toJson decode report := by
  obtain ⟨written, ordered⟩ := Survives.list fun diagnostic (_ : diagnostic ∈ report.errors) =>
    diagnostic.survives
  exact ⟨decode_part written, decode_part ordered⟩

end Report

/-! ### Message chains and findings of an engine -/

namespace MessageChain

variable {inner : Json.Decoder MessageChain} {text : String} {next : List MessageChain}
  {items : List Json}

theorem decode_single (inner : Json.Decoder MessageChain) (text : String) :
    (record inner).decode (.object [("text", .string text)]) = .ok (.link text []) := by
  simp [record, Json.Record.decode, Json.Record.readMembers, Json.decodeString, Json.decodeTextAs,
    Except.map, Json.required]

theorem decode_parts (reads : Json.decodeItems inner items = .ok next) :
    (record inner).decode (.object [("text", .string text), ("next", .array items)]) =
        .ok (.link text next) ∧
      (record inner).decode (.object [("next", .array items), ("text", .string text)]) =
        .ok (.link text next) := by
  simp [record, Json.Record.decode, Json.Record.readMembers, Json.decodeString, Json.decodeTextAs,
    Json.decodeList, reads, Except.map, Json.required]

mutual

/-- A chain is read back within as many levels as its encoding has. -/
theorem decodeWithin_toJson : (chain : MessageChain) → ∀ depth, chain.toJson.nesting < depth →
    decodeWithin depth chain.toJson = .ok chain
  | _, 0, shallow => absurd shallow (Nat.not_lt_zero _)
  | .link text [], depth + 1, _ => decode_single (decodeWithin depth) text
  | .link text (first :: rest), depth + 1, shallow => by
      have below : Json.itemsNesting (listToJson (first :: rest)) < depth := by
        simp only [toJson, Json.nesting, Json.membersNesting] at shallow
        simp only [listToJson]
        omega
      exact (decode_parts (decodeItems_listToJson (first :: rest) depth below)).1

theorem decodeItems_listToJson : (chains : List MessageChain) → ∀ depth,
    Json.itemsNesting (listToJson chains) < depth →
      Json.decodeItems (decodeWithin depth) (listToJson chains) = .ok chains
  | [], _, _ => rfl
  | first :: rest, depth, shallow => by
      simp only [listToJson, Json.itemsNesting, Nat.max_lt] at shallow
      rw [listToJson, Json.decodeItems, decodeWithin_toJson first depth shallow.1,
        decodeItems_listToJson rest depth shallow.2]

end

/-- In order, the messages one level below come first. -/
theorem sorted_toJson (text : String) (first : MessageChain) (rest : List MessageChain) :
    (link text (first :: rest)).toJson.sorted =
      .object [("next", .array (Json.sortedItems (listToJson (first :: rest)))),
        ("text", .string text)] := by
  rw [toJson, Json.sorted_object_of_perm (.swap ..)
    (Json.ascending_of_names ["next", "text"] (by decide) rfl)]
  rfl

mutual

theorem decodeWithin_sorted : (chain : MessageChain) → ∀ depth,
    chain.toJson.sorted.nesting < depth → decodeWithin depth chain.toJson.sorted = .ok chain
  | _, 0, shallow => absurd shallow (Nat.not_lt_zero _)
  | .link text [], depth + 1, _ => decode_single (decodeWithin depth) text
  | .link text (first :: rest), depth + 1, shallow => by
      rw [sorted_toJson] at shallow ⊢
      have below : Json.itemsNesting (Json.sortedItems (listToJson (first :: rest))) < depth := by
        simp only [Json.nesting, Json.membersNesting] at shallow
        omega
      exact (decode_parts (decodeItems_sorted (first :: rest) depth below)).2

theorem decodeItems_sorted : (chains : List MessageChain) → ∀ depth,
    Json.itemsNesting (Json.sortedItems (listToJson chains)) < depth →
      Json.decodeItems (decodeWithin depth) (Json.sortedItems (listToJson chains)) = .ok chains
  | [], _, _ => rfl
  | first :: rest, depth, shallow => by
      simp only [listToJson, Json.sortedItems, Json.itemsNesting, Nat.max_lt] at shallow
      rw [listToJson, Json.sortedItems, Json.decodeItems, decodeWithin_sorted first depth shallow.1,
        decodeItems_sorted rest depth shallow.2]

end

/-- A chain survives, however deeply it is nested. -/
theorem survives (chain : MessageChain) : Survives toJson decode chain :=
  ⟨decodeWithin_toJson chain _ (Nat.lt_succ_self _),
    decodeWithin_sorted chain _ (Nat.lt_succ_self _)⟩

end MessageChain

namespace DiagnosticLocation

theorem decode_parts {file : SourcePath} {start : Nat} {offset : Json}
    (reads : Json.decodeSize offset = .ok start) :
    decode (.object [("file", .string file.text), ("start", offset)]) = .ok ⟨file, start⟩ := by
  simp [decode, record, Json.Record.decode, Json.Record.readMembers, SourcePath.decode,
    Json.decodeTextAs, reads, Except.map, Json.required]

theorem survives {location : DiagnosticLocation} (fits : location.start < UInt64.size) :
    Survives toJson decode location := by
  have start := Json.survives_size fits
  refine ⟨decode_parts start.written, ?_⟩
  rw [toJson, Json.sorted_object_of_perm (.refl _)
    (Json.ascending_of_names ["file", "start"] (by decide) rfl)]
  exact decode_parts start.written

end DiagnosticLocation

namespace EngineDiagnostic

variable {code : UInt32} {message : MessageChain} {location : Option DiagnosticLocation}
  {number chain place : Json}

theorem decode_parts (readsNumber : Json.decodeUInt32 number = .ok code)
    (readsChain : MessageChain.decode chain = .ok message)
    (readsPlace : Json.decodeOption DiagnosticLocation.decode place = .ok location) :
    decode (.object [("code", number), ("message", chain), ("location", place)]) =
        .ok ⟨code, message, location⟩ ∧
      decode (.object [("code", number), ("location", place), ("message", chain)]) =
        .ok ⟨code, message, location⟩ := by
  simp [decode, record, Json.Record.decode, Json.Record.readMembers, readsNumber, readsChain,
    readsPlace, Except.map, Json.required]

/-- The location, if there is one, is an offset of 64 bits. -/
def Fits (diagnostic : EngineDiagnostic) : Prop :=
  ∀ location ∈ diagnostic.location, location.start < UInt64.size

/-- How the location of a finding is written. -/
def placeJson : Option DiagnosticLocation → Json
  | some location => location.toJson
  | none => .null

theorem decode_placeJson (fits : ∀ found ∈ location, found.start < UInt64.size) :
    Json.decodeOption DiagnosticLocation.decode (placeJson location) = .ok location ∧
      Json.decodeOption DiagnosticLocation.decode (placeJson location).sorted = .ok location := by
  cases location with
  | none => exact ⟨rfl, rfl⟩
  | some found => exact (DiagnosticLocation.survives (fits found rfl)).option rfl

theorem survives {diagnostic : EngineDiagnostic} (fits : diagnostic.Fits) :
    Survives toJson decode diagnostic := by
  obtain ⟨code, message, location⟩ := diagnostic
  have number := (Json.survives_uint32 code).written
  have chain := message.survives
  obtain ⟨written, ordered⟩ := decode_placeJson fits
  have encoded : toJson ⟨code, message, location⟩ = .object
      [("code", .nat code.toNat), ("message", message.toJson),
        ("location", placeJson location)] := by
    cases location <;> rfl
  refine ⟨?_, ?_⟩
  · rw [encoded]
    exact (decode_parts number chain.written written).1
  · rw [encoded, Json.sorted_object_of_perm (.cons _ (.swap ..))
      (Json.ascending_of_names ["code", "location", "message"] (by decide) rfl)]
    exact (decode_parts number chain.sorted ordered).2

end EngineDiagnostic

/-! ### Completions -/

namespace CompletionEntry

theorem decode_parts (name kind sortText : String) :
    decode (.object [("name", .string name), ("kind", .string kind),
        ("sortText", .string sortText)]) = .ok ⟨name, kind, sortText⟩ ∧
      decode (.object [("kind", .string kind), ("name", .string name),
        ("sortText", .string sortText)]) = .ok ⟨name, kind, sortText⟩ := by
  simp [decode, record, Json.Record.decode, Json.Record.readMembers, Json.decodeString,
    Json.decodeTextAs, Except.map, Json.required]

theorem survives (entry : CompletionEntry) : Survives toJson decode entry := by
  obtain ⟨name, kind, sortText⟩ := entry
  obtain ⟨written, swapped⟩ := decode_parts name kind sortText
  refine ⟨written, ?_⟩
  rw [toJson, Json.sorted_object_of_perm (.swap ..)
    (Json.ascending_of_names ["kind", "name", "sortText"] (by decide) rfl)]
  exact swapped

end CompletionEntry

namespace CompletionReport

theorem decode_part {entries : List CompletionEntry} {items : Json}
    (reads : Json.decodeList CompletionEntry.decode items = .ok entries) :
    decode (.object [("entries", items)]) = .ok ⟨entries⟩ := by
  simp [decode, record, Json.Record.decode, Json.Record.readMembers, reads, Except.map,
    Json.required]

theorem survives (report : CompletionReport) : Survives toJson decode report := by
  obtain ⟨written, ordered⟩ := Survives.list fun entry (_ : entry ∈ report.entries) =>
    entry.survives
  exact ⟨decode_part written, decode_part ordered⟩

end CompletionReport

/-! ### Notifications -/

namespace FileChange

theorem decode_kind (kind : ChangeKind) : ChangeKind.decode (.string kind.name) = .ok kind := by
  cases kind <;> rfl

theorem decode_parts (kind : ChangeKind) (path : SourcePath) :
    decode (.object [("type", .string kind.name), ("fullPath", .string path.text)]) =
        .ok ⟨kind, path⟩ ∧
      decode (.object [("fullPath", .string path.text), ("type", .string kind.name)]) =
        .ok ⟨kind, path⟩ := by
  simp [decode, record, Json.Record.decode, Json.Record.readMembers, decode_kind,
    SourcePath.decode, Json.decodeTextAs, Except.map, Json.required]

theorem survives (change : FileChange) : Survives toJson decode change := by
  obtain ⟨kind, path⟩ := change
  obtain ⟨written, swapped⟩ := decode_parts kind path
  refine ⟨written, ?_⟩
  rw [toJson, Json.sorted_object_of_perm (.swap ..)
    (Json.ascending_of_names ["fullPath", "type"] (by decide) rfl)]
  exact swapped

end FileChange

namespace FileChangeNotification

theorem decode_part {changes : List FileChange} {items : Json}
    (reads : Json.decodeList FileChange.decode items = .ok changes) :
    decode (.object [("changes", items)]) = .ok ⟨changes⟩ := by
  simp [decode, record, Json.Record.decode, Json.Record.readMembers, reads]

theorem survives (notification : FileChangeNotification) :
    Survives toJson decode notification := by
  obtain ⟨written, ordered⟩ := Survives.list fun change (_ : change ∈ notification.changes) =>
    change.survives
  exact ⟨decode_part written, decode_part ordered⟩

end FileChangeNotification

/-! ### Settings -/

namespace LintConfig

/-- The limit is a number of 64 bits. -/
def Fits (config : LintConfig) : Prop :=
  config.maxLineLength < UInt64.size

theorem decode_parts {allow : List String} {limit : Nat} {items number : Json}
    (readsItems : Json.decodeList Json.decodeString items = .ok allow)
    (readsNumber : Json.decodeSize number = .ok limit) :
    decode (.object [("allow", items), ("max_line_length", number)]) = .ok ⟨allow, limit⟩ := by
  simp [decode, record, Json.Record.decode, Json.Record.readMembers, readsItems, readsNumber,
    Except.map]

theorem survives {config : LintConfig} (fits : config.Fits) :
    Survives toJson decode config := by
  obtain ⟨allow, limit⟩ := config
  obtain ⟨written, ordered⟩ := Survives.list fun text (_ : text ∈ allow) =>
    Json.survives_string text
  have number := (Json.survives_size fits).written
  refine ⟨decode_parts written number, ?_⟩
  rw [toJson, Json.sorted_object_of_perm (.refl _)
    (Json.ascending_of_names ["allow", "max_line_length"] (by decide) rfl)]
  exact decode_parts ordered number

end LintConfig

namespace CompilationSettings

/-- The members ascend by name at every level, as those of a map do. -/
def InOrder (settings : CompilationSettings) : Prop :=
  settings.toJson.sorted = settings.toJson

theorem survives {settings : CompilationSettings} (ordered : settings.InOrder) :
    Survives toJson decode settings :=
  ⟨rfl, by rw [ordered]; rfl⟩

end CompilationSettings

/-! ### Content hashes -/

namespace ContentHash

/-- A digit is no sign. -/
theorem digitChar_ne_plus {value : Nat} (small : value < 16) : value.digitChar ≠ '+' := by
  revert small value
  decide

theorem pairByte_byteDigits (byte : UInt8) :
    pairByte (byte.toNat / 16).digitChar (byte.toNat % 16).digitChar = some byte := by
  have bound := byte.toNat_lt
  have high : byte.toNat / 16 < 16 := by omega
  have low : byte.toNat % 16 < 16 := by omega
  have whole : 16 * (byte.toNat / 16) + byte.toNat % 16 = byte.toNat := by omega
  simp [pairByte, digitChar_ne_plus high, Text.hexValue?_digitChar high,
    Text.hexValue?_digitChar low, whole]

/-- The digits of some bytes stand for these bytes. -/
theorem pairBytes_byteDigits (bytes : List UInt8) :
    pairBytes (bytes.flatMap byteDigits) = some bytes := by
  induction bytes with
  | nil => rfl
  | cons byte rest inductionHypothesis =>
      rw [List.flatMap_cons, byteDigits, List.cons_append, List.cons_append, List.nil_append,
        pairBytes, pairByte_byteDigits, inductionHypothesis]

/-- A hash is read back from its digits. -/
theorem parse_hex (hash : ContentHash) : parse hash.hex = .ok hash := by
  obtain ⟨⟨array, size⟩⟩ := hash
  rw [parse, hex, String.toList_ofList, pairBytes_byteDigits]
  exact dif_pos size

theorem survives (hash : ContentHash) : Survives toJson decode hash := by
  have read : decode hash.toJson = .ok hash := Json.mapError_eq_ok_iff.mpr hash.parse_hex
  exact ⟨read, read⟩

end ContentHash

namespace Json

/-- Every value of the types that are written on the wire is read back from its encoding. An
offset or a limit is a number of 64 bits, and the members of settings ascend at every level; all
other types make the round trip without a condition. -/
theorem wire_types_round_trip :
    RoundTrips Report.toJson Report.decode (fun _ => True) ∧
      RoundTrips Diagnostic.toJson Diagnostic.decode (fun _ => True) ∧
      RoundTrips Position.toJson Position.decode (fun _ => True) ∧
      RoundTrips MessageChain.toJson MessageChain.decode (fun _ => True) ∧
      RoundTrips EngineDiagnostic.toJson EngineDiagnostic.decode EngineDiagnostic.Fits ∧
      RoundTrips CompletionEntry.toJson CompletionEntry.decode (fun _ => True) ∧
      RoundTrips CompletionReport.toJson CompletionReport.decode (fun _ => True) ∧
      RoundTrips FileChangeNotification.toJson FileChangeNotification.decode (fun _ => True) ∧
      RoundTrips LintConfig.toJson LintConfig.decode LintConfig.Fits ∧
      RoundTrips ContentHash.toJson ContentHash.decode (fun _ => True) ∧
      RoundTrips CompilationSettings.toJson CompilationSettings.decode
        CompilationSettings.InOrder :=
  ⟨.of_survives fun report _ => report.survives,
    .of_survives fun diagnostic _ => diagnostic.survives,
    .of_survives fun position _ => position.survives,
    .of_survives fun chain _ => chain.survives,
    .of_survives fun _ fits => EngineDiagnostic.survives fits,
    .of_survives fun entry _ => entry.survives,
    .of_survives fun report _ => report.survives,
    .of_survives fun notification _ => notification.survives,
    .of_survives fun _ fits => LintConfig.survives fits,
    .of_survives fun hash _ => hash.survives,
    .of_survives fun _ ordered => CompilationSettings.survives ordered⟩

/-- A finding with a nested message, the largest limit and settings with an object inside. -/
theorem wire_types_round_trip_large_numbers :
    let chain := MessageChain.link "a" [.link "b" [.single "c"], .single "d"]
    let finding : EngineDiagnostic := ⟨2304, chain, some ⟨⟨"/p/a.ts"⟩, 18446744073709551615⟩⟩
    let config : LintConfig := ⟨["semi"], 18446744073709551615⟩
    let settings : CompilationSettings :=
      ⟨[("paths", .object [("a", .array [.int (-1)]), ("b", .null)]), ("target", .string "es5")]⟩
    (finding.Fits ∧ Survives EngineDiagnostic.toJson EngineDiagnostic.decode finding) ∧
      (config.Fits ∧ Survives LintConfig.toJson LintConfig.decode config) ∧
      settings.InOrder ∧
        Survives CompilationSettings.toJson CompilationSettings.decode settings := by
  intro chain finding config settings
  obtain ⟨-, -, -, -, findings, -, -, -, configs, -, allSettings⟩ := wire_types_round_trip
  have findingFits : finding.Fits := by
    rintro location ⟨⟩
    decide
  have configFits : config.maxLineLength < UInt64.size := by decide
  have inner : (Json.object [("a", .array [.int (-1)]), ("b", .null)]).sorted =
      .object [("a", .array [.int (-1)]), ("b", .null)] :=
    sorted_object_of_perm (.refl _) (ascending_of_names ["a", "b"] (by decide) rfl)
  have inOrder : settings.InOrder := by
    refine (sorted_object_of_perm (.refl _)
      (ascending_of_names ["paths", "target"] (by decide) rfl)).trans ?_
    rw [sortedMembers, inner]
    rfl
  exact ⟨⟨findingFits, findings.survives finding findingFits⟩,
    ⟨configFits, configs.survives config configFits⟩,
    inOrder, allSettings.survives settings inOrder⟩

end Json

end ScriptAnalysis
