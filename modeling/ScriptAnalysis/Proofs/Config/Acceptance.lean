import Mathlib
import ScriptAnalysis.Proofs.Config.Shape
import ScriptAnalysis.Proofs.Json.Record

/-!
# Accepted configurations

A text is accepted exactly if it describes a configuration that keeps the rules, and the result is
this configuration (`ofText_by_shape`). Each reader of a part succeeds exactly if the value of the
part fits; for the members of a table this rests on their keys being different.
-/

namespace ScriptAnalysis.ProjectConfig

open ScriptAnalysis.Text (Span)
open ScriptAnalysis.Toml (Node Scalar Value Key)

variable {α β : Type}

/-! ### Outcomes of readers -/

@[simp]
theorem located_eq_ok_iff {span : Option Span} {outcome : Except Complaint α} {value : α} :
    located span outcome = .ok value ↔ outcome = .ok value := by
  cases outcome <;> simp [located]

@[simp]
theorem mismatch_ne_ok {node : Node} {expected : String} {value : α} :
    mismatch node expected ≠ .ok value := nofun

theorem bind_eq_ok_iff {outcome : Except Complaint α} {next : α → Except Complaint β}
    {result : β} :
    outcome.bind next = .ok result ↔ ∃ value, outcome = .ok value ∧ next value = .ok result := by
  cases outcome <;> simp [Except.bind]

/-! ### Texts and sizes -/

theorem readText_eq_ok_iff {node : Node} {text : String} :
    readText node = .ok text ↔ node.value = .scalar (.string text) := by
  cases node with
  | scalar span value => cases value <;> simp [readText, Node.value]
  | array | table | tables => simp [readText, Node.value]

theorem readTextItems_cons (first : Node) (rest : List Node) :
    readTextItems (first :: rest) =
      (readText first).bind fun text => (readTextItems rest).map (text :: ·) := by
  rw [readTextItems]
  cases readText first with
  | error => rfl
  | ok => cases readTextItems rest <;> rfl

theorem readTextItems_eq_ok_iff {items : List Node} {texts : List String} :
    readTextItems items = .ok texts ↔
      Toml.itemValues items = texts.map fun text => .scalar (.string text) := by
  induction items generalizing texts with
  | nil => cases texts <;> simp [readTextItems, Toml.itemValues]
  | cons first rest inductionHypothesis =>
      simp only [readTextItems_cons, bind_eq_ok_iff, Json.map_eq_ok_iff, readText_eq_ok_iff,
        inductionHypothesis, Toml.itemValues]
      cases texts <;> simp

theorem readTexts_eq_ok_iff {node : Node} {texts : List String} :
    readTexts node = .ok texts ↔ IsTexts node.value texts := by
  cases node with
  | array | tables =>
      simp only [readTexts, located_eq_ok_iff, readTextItems_eq_ok_iff, IsTexts, Node.value,
        Value.array.injEq]
  | scalar | table => simp [readTexts, IsTexts, Node.value]

theorem readSize_eq_ok_iff {node : Node} {size : Nat} :
    readSize node = .ok size ↔ IsSize node.value size := by
  cases node with
  | scalar span value =>
      cases value with
      | integer value =>
          simp only [readSize, IsSize, Node.value, Value.scalar.injEq, Scalar.integer.injEq]
          split
          · simp; omega
          · simp; omega
      | string | float | boolean | moment => simp [readSize, IsSize, Node.value]
  | array | table | tables => simp [readSize, IsSize, Node.value]

/-! ### Fields -/

variable {fits : Value → α → Prop} {absent result : α} {name : String} {value : Value}
  {members : List (String × Value)}

/-- The first member of a name decides; a later one of the same name is not there. -/
theorem field_cons_self (free : members.lookup name = none) :
    Field fits absent (((name, value) :: members).lookup name) result ↔
      ∃ found, fits value found ∧ Field fits found (members.lookup name) result := by
  rw [List.lookup_cons_self, free]
  simp [Field]

theorem lookup_cons_of_ne {other : String} (different : other ≠ name) :
    ((other, value) :: members).lookup name = members.lookup name := by
  rw [List.lookup_cons, beq_eq_false_iff_ne.mpr different.symm]

/-! ### The lint section -/

theorem setsLint_allow_iff {start lint : LintConfig} (free : members.lookup "allow" = none) :
    SetsLint start (("allow", value) :: members) lint ↔
      ∃ allow, IsTexts value allow ∧ SetsLint { start with allow := allow } members lint := by
  simp only [setsLint_iff, List.forall_mem_cons, field_cons_self free,
    lookup_cons_of_ne (show "allow" ≠ "max_line_length" by decide)]
  grind

theorem setsLint_limit_iff {start lint : LintConfig}
    (free : members.lookup "max_line_length" = none) :
    SetsLint start (("max_line_length", value) :: members) lint ↔
      ∃ limit, IsSize value limit ∧
        SetsLint { start with maxLineLength := limit } members lint := by
  simp only [setsLint_iff, List.forall_mem_cons, field_cons_self free,
    lookup_cons_of_ne (show "max_line_length" ≠ "allow" by decide)]
  grind

theorem readLintMembers_eq_ok_iff {members : Toml.Members} (distinct : members.names.Nodup)
    {start lint : LintConfig} : readLintMembers members start = .ok lint ↔
      SetsLint start (Toml.memberValues members) lint := by
  induction members generalizing start with
  | nil =>
      cases start
      cases lint
      simp [readLintMembers, Toml.memberValues, setsLint_iff, Field, eq_comm]
  | cons entry rest inductionHypothesis =>
      obtain ⟨⟨name, span⟩, node⟩ := entry
      obtain ⟨new, distinct⟩ := List.nodup_cons.mp distinct
      -- No later member has this name, so what this one sets is not set again.
      have free := Toml.lookup_memberValues_eq_none new
      have later (start : LintConfig) : readLintMembers rest start = .ok lint ↔
          SetsLint start (Toml.memberValues rest) lint := inductionHypothesis distinct
      rw [Toml.memberValues]
      by_cases allow : name = "allow"
      · subst allow
        rw [setsLint_allow_iff free, readLintMembers, if_pos rfl]
        simp only [← readTexts_eq_ok_iff, ← later]
        cases readTexts node <;> simp [located]
      · by_cases limit : name = "max_line_length"
        · subst limit
          rw [setsLint_limit_iff free, readLintMembers, if_neg allow, if_pos rfl]
          simp only [← readSize_eq_ok_iff, ← later]
          cases readSize node <;> simp [located]
        · simp [readLintMembers, allow, limit, setsLint_iff]

theorem readLintItems_eq_ok_iff {items : List Node} {lint : LintConfig} :
    readLintItems items = .ok lint ↔ ListsLint (Toml.itemValues items) lint := by
  rw [Toml.itemValues_eq_map, listsLint_iff]
  obtain ⟨allow, limit⟩ := lint
  match items with
  | [] => simp [readLintItems, Field, LintConfig.standard, eq_comm]
  | [first] =>
      simp only [readLintItems, List.map_cons, List.getElem?_cons_zero, List.getElem?_cons_succ,
        Field, ← readTexts_eq_ok_iff]
      cases readTexts first <;> simp [Json.map_eq_ok_iff, LintConfig.standard, eq_comm (b := limit)]
  | first :: second :: _ =>
      simp only [readLintItems, List.map_cons, List.getElem?_cons_zero, List.getElem?_cons_succ,
        Field, ← readTexts_eq_ok_iff, ← readSize_eq_ok_iff]
      cases readTexts first <;> simp [Json.map_eq_ok_iff, and_comm]

theorem readLint_eq_ok_iff {node : Node} (distinct : node.IsDistinct) {lint : LintConfig} :
    readLint node = .ok lint ↔ IsLint node.value lint := by
  cases node with
  | table form span members =>
      have nodup := (Node.isDistinct_table_iff.mp distinct).nodup
      simp only [readLint, located_eq_ok_iff, readLintMembers_eq_ok_iff nodup, Node.value]
      constructor
      · exact .table rfl
      · rintro (⟨⟨⟩, sets⟩ | ⟨⟨⟩, -⟩)
        exact sets
  | array | tables =>
      simp only [readLint, located_eq_ok_iff, readLintItems_eq_ok_iff, Node.value]
      constructor
      · exact .array rfl
      · rintro (⟨⟨⟩, -⟩ | ⟨⟨⟩, lists⟩)
        exact lists
  | scalar span value =>
      refine ⟨fun read => ?_, ?_⟩
      · cases value <;> cases read
      · rintro (⟨table, sets⟩ | ⟨⟨⟩, -⟩)
        cases value with
        | moment text =>
            cases table
            have known := sets.known _ List.mem_cons_self
            simp [momentKey] at known
        | string | integer | float | boolean => cases table

/-! ### The compiler section -/

theorem readSettingItems_cons (first : Node) (rest : List Node) :
    readSettingItems (first :: rest) =
      (readSetting first).bind fun value => (readSettingItems rest).map (value :: ·) := by
  rw [readSettingItems]
  cases readSetting first with
  | error => rfl
  | ok => cases readSettingItems rest <;> rfl

theorem readSettingMembers_cons (key : Key) (node : Node) (rest : Toml.Members) :
    readSettingMembers ((key, node) :: rest) =
      (located (node.span? <|> some key.span) (readSetting node)).bind fun value =>
        (readSettingMembers rest).map ((key.text, value) :: ·) := by
  rw [readSettingMembers]
  cases located (node.span? <|> some key.span) (readSetting node) with
  | error => rfl
  | ok => cases readSettingMembers rest <;> rfl

theorem readMoment_eq_ok_iff {node : Node} {json : Json} :
    readMoment node = .ok json ↔
      ∃ presented, statedMoment? node.value = some presented ∧ setting presented = json := by
  cases node with
  | scalar span value =>
      cases value with
      | string text =>
          simp only [readMoment, Node.value, statedMoment?]
          cases Toml.momentOfText? text <;> simp [setting, scalarSetting]
      | integer | float | boolean | moment =>
          simp [readMoment, Node.value, statedMoment?]
  | array | table | tables => simp [readMoment, Node.value, statedMoment?]

mutual

theorem readSetting_eq_ok_iff : (node : Node) → {json : Json} →
    (readSetting node = .ok json ↔
      ∃ presented, presented? node.value = some presented ∧ setting presented = json)
  | .scalar _ value, json => by
      cases value with
      | float bits =>
          simp only [readSetting, Node.value, presented?, Option.some.injEq, exists_eq_left',
            setting, scalarSetting]
          split <;> simp [*]
      | string | integer | boolean | moment =>
          simp [readSetting, Node.value, presented?, setting, scalarSetting]
  | .array _ items, json => by
      simp [readSetting, Json.map_eq_ok_iff, readSettingItems_eq_ok_iff items, Node.value,
        presented?, setting]
  | .tables items, json => by
      simp [readSetting, Json.map_eq_ok_iff, readSettingItems_eq_ok_iff items, Node.value,
        presented?, setting]
  | .table _ _ [], json => by
      simp [readSetting, Node.value, Toml.memberValues, presented?, setting, settingMembers,
        Json.sortMembers]
  | .table _ _ ((key, node) :: rest), json => by
      rw [readSetting, Node.value, Toml.memberValues, presented?]
      by_cases named : key.text = momentKey
      · rw [if_pos named, if_pos named, located_eq_ok_iff, readMoment_eq_ok_iff]
      · rw [if_neg named, if_neg named, located_eq_ok_iff, Json.map_eq_ok_iff]
        simp [readSettingMembers_eq_ok_iff ((key, node) :: rest), Toml.memberValues, setting]

theorem readSettingItems_eq_ok_iff : (items : List Node) → {jsons : List Json} →
    (readSettingItems items = .ok jsons ↔
      ∃ presented, presentedItems? (Toml.itemValues items) = some presented ∧
        settingItems presented = jsons)
  | [], jsons => by simp [readSettingItems, Toml.itemValues, presentedItems?, settingItems]
  | first :: rest, jsons => by
      simp only [readSettingItems_cons, bind_eq_ok_iff, Json.map_eq_ok_iff,
        readSetting_eq_ok_iff first, readSettingItems_eq_ok_iff rest, Toml.itemValues,
        presentedItems?]
      cases presented? first.value <;>
        cases presentedItems? (Toml.itemValues rest) <;> simp [settingItems]

theorem readSettingMembers_eq_ok_iff : (members : List (Key × Node)) →
    {jsons : List (String × Json)} →
    (readSettingMembers members = .ok jsons ↔
      ∃ presented, presentedMembers? (Toml.memberValues members) = some presented ∧
        settingMembers presented = jsons)
  | [], jsons => by simp [readSettingMembers, Toml.memberValues, presentedMembers?, settingMembers]
  | (key, node) :: rest, jsons => by
      simp only [readSettingMembers_cons, bind_eq_ok_iff, Json.map_eq_ok_iff, located_eq_ok_iff,
        readSetting_eq_ok_iff node, readSettingMembers_eq_ok_iff rest, Toml.memberValues,
        presentedMembers?]
      cases presented? node.value <;>
        cases presentedMembers? (Toml.memberValues rest) <;> simp [settingMembers]

end

theorem readCompiler_eq_ok_iff {node : Node} {settings : CompilationSettings} :
    readCompiler node = .ok settings ↔ IsSettings node.value settings := by
  obtain ⟨members⟩ := settings
  cases node with
  | table form span inner =>
      simp only [readCompiler, located_eq_ok_iff, Json.map_eq_ok_iff, readSettingMembers_eq_ok_iff,
        IsSettings, Node.value, members?, Option.some.injEq, exists_eq_left']
      simp [eq_comm (a := members)]
  | scalar span value =>
      cases value with
      | moment text =>
          simp [readCompiler, IsSettings, Node.value, members?, presentedMembers?, presented?,
            settingMembers, setting, scalarSetting, Json.sortMembers, Json.insertMember, eq_comm]
      | string | integer | float | boolean =>
          simp [readCompiler, IsSettings, Node.value, members?]
  | array | tables => simp [readCompiler, IsSettings, Node.value, members?]

/-! ### The document -/

section

variable {start config : ProjectConfig}

theorem sets_files_iff (free : members.lookup "files" = none) :
    Sets start (("files", value) :: members) config ↔
      ∃ files, IsTexts value files ∧ Sets { start with files := files } members config := by
  simp only [sets_iff, List.forall_mem_cons, field_cons_self free,
    lookup_cons_of_ne (show "files" ≠ "compiler" by decide),
    lookup_cons_of_ne (show "files" ≠ "lint" by decide)]
  grind

theorem sets_compiler_iff (free : members.lookup "compiler" = none) :
    Sets start (("compiler", value) :: members) config ↔
      ∃ compiler, IsSettings value compiler ∧
        Sets { start with compiler := compiler } members config := by
  simp only [sets_iff, List.forall_mem_cons, field_cons_self free,
    lookup_cons_of_ne (show "compiler" ≠ "files" by decide),
    lookup_cons_of_ne (show "compiler" ≠ "lint" by decide)]
  grind

theorem sets_lint_iff (free : members.lookup "lint" = none) :
    Sets start (("lint", value) :: members) config ↔
      ∃ lint, IsLint value lint ∧ Sets { start with lint := some lint } members config := by
  simp only [sets_iff, List.forall_mem_cons, field_cons_self free,
    lookup_cons_of_ne (show "lint" ≠ "files" by decide),
    lookup_cons_of_ne (show "lint" ≠ "compiler" by decide)]
  grind

end

theorem readMembers_eq_ok_iff {members : Toml.Members} (distinct : members.IsDistinct)
    {start config : ProjectConfig} : readMembers members start = .ok config ↔
      Sets start (Toml.memberValues members) config := by
  induction members generalizing start with
  | nil =>
      cases start
      cases config
      simp [readMembers, Toml.memberValues, sets_iff, Field, eq_comm]
  | cons entry rest inductionHypothesis =>
      obtain ⟨⟨name, span⟩, node⟩ := entry
      obtain ⟨new, nodup⟩ := List.nodup_cons.mp distinct.nodup
      obtain ⟨fine, each⟩ := List.forall_mem_cons.mp distinct.each
      have free := Toml.lookup_memberValues_eq_none new
      have later (start : ProjectConfig) : readMembers rest start = .ok config ↔
          Sets start (Toml.memberValues rest) config := inductionHypothesis ⟨nodup, each⟩
      rw [Toml.memberValues]
      by_cases files : name = "files"
      · subst files
        rw [sets_files_iff free, readMembers, if_pos rfl]
        simp only [← readTexts_eq_ok_iff, ← later]
        cases readTexts node <;> simp [located]
      · by_cases compiler : name = "compiler"
        · subst compiler
          rw [sets_compiler_iff free, readMembers, if_neg files, if_pos rfl]
          simp only [← readCompiler_eq_ok_iff, ← later]
          cases readCompiler node <;> simp [located]
        · by_cases lint : name = "lint"
          · subst lint
            rw [sets_lint_iff free, readMembers, if_neg files, if_neg compiler, if_pos rfl]
            simp only [← readLint_eq_ok_iff fine, ← later]
            cases readLint node <;> simp [located]
          · simp [readMembers, files, compiler, lint, sets_iff]

/-! ### Outcomes of a text -/

/-- What a text describes is what is read from its document. -/
theorem describes_iff {text : String} {config : ProjectConfig} :
    Describes text config ↔
      ∃ members, Toml.documentOfText? text = some members ∧
        readMembers members standard = .ok config := by
  rw [Describes, Toml.valueOf?]
  cases read : Toml.documentOfText? text with
  | none => simp
  | some members => simp [readMembers_eq_ok_iff (Toml.documentOfText?_isDistinct read)]

/-- A text describes at most one configuration. -/
theorem Describes.iff_eq {text : String} {config other : ProjectConfig}
    (described : Describes text config) : Describes text other ↔ config = other := by
  obtain ⟨members, read, shape⟩ := describes_iff.mp described
  simp [describes_iff, read, shape]

theorem ofText_of_describes {text : String} {config : ProjectConfig}
    (described : Describes text config) : ofText text = validate config := by
  obtain ⟨members, read, shape⟩ := describes_iff.mp described
  rw [ofText, read]
  simp only [shape]

/-- What describes no configuration cannot be parsed. -/
theorem ofText_of_not_describes {text : String} (not : ¬ ∃ config, Describes text config) :
    ∃ error, ofText text = .error error ∧ error.isParseFailure = true := by
  unfold ofText
  split
  · exact ⟨.notADocument, rfl, rfl⟩
  · next members read =>
      split
      · next complaint _ =>
          refine ⟨errorOf text complaint, rfl, ?_⟩
          unfold errorOf
          split <;> rfl
      · next config shape =>
          exact absurd ⟨config, describes_iff.mpr ⟨members, read, shape⟩⟩ not

/-- The rules: a blank file is noticed first, then a limit of zero. -/
theorem validate_cases (config : ProjectConfig) :
    (validate config = .error .emptyPath ∧ ∃ file ∈ config.files, Text.allBlank file = true) ∨
    (∀ file ∈ config.files, Text.allBlank file = false) ∧
      (validate config = .error .limitNotPositive ∧ (∃ lint ∈ config.lint, lint.maxLineLength = 0) ∨
        validate config = .ok config ∧ ∀ lint ∈ config.lint, 1 ≤ lint.maxLineLength) := by
  unfold validate
  split
  · next blank => exact .inl ⟨rfl, List.any_eq_true.mp blank⟩
  · next blank =>
      refine .inr ⟨by simpa using blank, ?_⟩
      split
      · next lint given =>
          split
          · next zero => exact .inl ⟨rfl, lint, given, zero⟩
          · next positive =>
              refine .inr ⟨rfl, fun other there => ?_⟩
              cases given.symm.trans there
              exact Nat.one_le_iff_ne_zero.mpr positive
      · next missing => exact .inr ⟨rfl, fun lint there => nomatch missing.symm.trans there⟩

/-- Every text is accepted, against a rule, or of another shape, and which it is depends on what it
describes. -/
theorem ofText_by_shape (text : String) :
    (∀ config, ofText text = .ok config ↔ Describes text config ∧
      (∀ file ∈ config.files, Text.allBlank file = false) ∧
      ∀ lint ∈ config.lint, 1 ≤ lint.maxLineLength) ∧
    (ofText text = .error .emptyPath ↔
      ∃ config, Describes text config ∧ ∃ file ∈ config.files, Text.allBlank file = true) ∧
    (ofText text = .error .limitNotPositive ↔
      ∃ config, Describes text config ∧ (∀ file ∈ config.files, Text.allBlank file = false) ∧
        ∃ lint ∈ config.lint, lint.maxLineLength = 0) ∧
    ((∃ error, ofText text = .error error ∧ error.isParseFailure = true) ↔
      ¬ ∃ config, Describes text config) := by
  by_cases described : ∃ config, Describes text config
  -- One configuration is described, and only the rules are left.
  · obtain ⟨config, describes⟩ := described
    simp only [ofText_of_describes describes, describes.iff_eq, exists_eq_left']
    rcases validate_cases config with ⟨outcome, file, listed, blank⟩ |
      ⟨filled, ⟨outcome, lint, given, zero⟩ | ⟨outcome, positive⟩⟩
    · rw [outcome]
      grind [ConfigError.isParseFailure]
    · rw [outcome]
      grind [ConfigError.isParseFailure]
    · rw [outcome]
      grind [ConfigError.isParseFailure]
  · obtain ⟨error, outcome, parse⟩ := ofText_of_not_describes described
    have none := not_exists.mp described
    rw [outcome]
    grind [ConfigError.isParseFailure]

/-- A table in the compiler section whose first key is the private one and holds no moment is
refused. -/
theorem ofText_refuses_private_key :
    Toml.valueOf? "[compiler.x]\n\"$__toml_private_datetime\" = 5\n" =
      some [("compiler", .table [("x", .table [(momentKey, .scalar (.integer 5))])])] ∧
    ∃ error, ofText "[compiler.x]\n\"$__toml_private_datetime\" = 5\n" = .error error ∧
      error.isParseFailure = true := by
  have read : Toml.valueOf? "[compiler.x]\n\"$__toml_private_datetime\" = 5\n" =
      some [("compiler", .table [("x", .table [(momentKey, .scalar (.integer 5))])])] := by
    cbv
  refine ⟨read, ofText_of_not_describes ?_⟩
  rintro ⟨config, document, same, sets⟩
  cases read.symm.trans same
  obtain ⟨members, ⟨⟩, presented, refused, -⟩ := sets.compiler
  cases refused

end ScriptAnalysis.ProjectConfig
