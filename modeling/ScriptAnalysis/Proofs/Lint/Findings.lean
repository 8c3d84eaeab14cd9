import Mathlib.Data.List.Forall2
import ScriptAnalysis.Lint.Rule
import ScriptAnalysis.Proofs.Snapshot.Order
import ScriptAnalysis.Proofs.Token.Bytes

/-!
# What the built-in rules find

A rule `Covers` the faulty lines or tokens of a script if it has one finding for each of them, in
their order, and no other. Lines are numbered by their indices and tokens by the offsets of their
first bytes. The built-in rules cover what they are about, and each lists its findings at strictly
increasing positions (`builtin_covers`).
-/

namespace ScriptAnalysis

namespace Text

variable {drop : Char → Bool} {chars : List Char}

/-- Something is trimmed away exactly if the last character is in the class. -/
theorem length_trimEnd_ne_iff :
    (trimEnd drop chars).length ≠ chars.length ↔ ∃ c ∈ chars.getLast?, drop c = true := by
  rcases List.eq_nil_or_concat' chars with rfl | ⟨before, c, rfl⟩
  · simp [trimEnd]
  · have last : ∀ other, other ∈ (before ++ [c]).getLast? ↔ other = c := by
      simp [eq_comm]
    simp only [last, exists_eq_left]
    constructor
    · intro shorter
      by_contra kept
      exact shorter (congrArg List.length (List.rdropWhile_concat_neg drop before c kept))
    · intro dropped
      have atMost := (List.rdropWhile_prefix drop before).length_le
      rw [trimEnd_concat dropped, List.length_append, List.length_singleton]
      exact Nat.ne_of_lt (Nat.lt_succ_of_le atMost)

end Text

namespace Snapshot

variable {path : SourcePath} {text : String} {index : Nat} {line : List Char}

/-- A position inside of a shown line keeps both counts. -/
theorem toNat_ofNat_of_line? (small : Text.byteLength text.toList < UInt32.size)
    (there : (capture path text).line? index = some line) {character : Nat}
    (inside : character ≤ line.length) :
    (Position.ofNat index character).line.toNat = index ∧
      (Position.ofNat index character).character.toNat = character := by
  rw [line?_capture, List.getElem?_map, Option.map_eq_some_iff] at there
  obtain ⟨whole, stands, rfl⟩ := there
  have longer : (Text.trimEnd isBreak whole).length ≤ whole.length :=
    (List.rdropWhile_prefix isBreak whole).length_le
  obtain ⟨lines, characters, -⟩ := readsFrom_ofNat path small stands (inside.trans longer)
  exact ⟨lines, characters⟩

/-- Only the lines that are counted are shown. -/
theorem lt_lineCount_of_line? {snapshot : Snapshot} (there : snapshot.line? index = some line) :
    index < snapshot.lineCount := by
  by_contra beyond
  rw [line?, List.getElem?_eq_none (Nat.le_of_not_lt beyond)] at there
  cases there

end Snapshot

namespace LintRule

section Covers

variable {faulty : Nat → Prop} {shows : Nat → LintFinding → Prop} {findings : List LintFinding}

/-- There is one finding for each number that is faulty, in ascending order of the numbers, and
each finding shows what it has to show about its number. -/
def Covers (faulty : Nat → Prop) (shows : Nat → LintFinding → Prop)
    (findings : List LintFinding) : Prop :=
  ∃ numbers : List Nat, numbers.Pairwise (· < ·) ∧ (∀ number, number ∈ numbers ↔ faulty number) ∧
    List.Forall₂ shows numbers findings

theorem exists_shows_of_mem {numbers : List Nat} (shown : List.Forall₂ shows numbers findings)
    {finding : LintFinding} (member : finding ∈ findings) :
    ∃ number ∈ numbers, shows number finding := by
  induction shown with
  | nil => cases member
  | cons told _ inductionHypothesis =>
      rcases List.mem_cons.mp member with rfl | later
      · exact ⟨_, List.mem_cons_self, told⟩
      · obtain ⟨number, among, tells⟩ := inductionHypothesis later
        exact ⟨number, List.mem_cons_of_mem _ among, tells⟩

/-- If findings about greater numbers have greater positions, the positions increase. -/
theorem Covers.pairwise_lt (covers : Covers faulty shows findings)
    (increasing : ∀ {left right leftFinding rightFinding}, faulty left → faulty right →
      shows left leftFinding → shows right rightFinding → left < right →
        leftFinding.position < rightFinding.position) :
    findings.Pairwise fun left right => left.position < right.position := by
  obtain ⟨numbers, ascending, all, shown⟩ := covers
  replace all : ∀ number ∈ numbers, faulty number := fun number => (all number).mp
  induction shown with
  | nil => exact .nil
  | cons told later inductionHypothesis =>
      obtain ⟨least, ascending⟩ := List.pairwise_cons.mp ascending
      obtain ⟨here, all⟩ := List.forall_mem_cons.mp all
      refine .cons (fun other member => ?_) (inductionHypothesis ascending all)
      obtain ⟨number, among, tells⟩ := exists_shows_of_mem later member
      exact increasing here (all number among) told tells (least number among)

/-- A check of one number after the other covers the numbers that it objects to. -/
theorem covers_filterMap {count : Nat} {check : Nat → Option LintFinding}
    (objects : ∀ number, faulty number ↔ number < count ∧ (check number).isSome = true)
    (tells : ∀ number finding, check number = some finding → shows number finding) :
    Covers faulty shows ((List.range count).filterMap check) := by
  refine ⟨(List.range count).filter fun number => (check number).isSome,
    List.pairwise_lt_range.filter _, fun number => ?_, ?_⟩
  · rw [List.mem_filter, List.mem_range, objects]
  · induction List.range count with
    | nil => exact .nil
    | cons number rest inductionHypothesis =>
        cases found : check number with
        | none =>
            rw [List.filter_cons_of_neg (by simp [found]), List.filterMap_cons_none found]
            exact inductionHypothesis
        | some finding =>
            rw [List.filter_cons_of_pos (by simp [found]), List.filterMap_cons_some found]
            exact .cons (tells number finding found) inductionHypothesis

end Covers

section Lines

variable {snapshot : Snapshot} {line : List Char} {index : Nat}

/-- What a check of single lines finds in a snapshot. -/
theorem filterMap_lines (check : Nat → List Char → Option LintFinding) (snapshot : Snapshot) :
    (snapshot.lines.filterMap fun (index, line) => check index line) =
      (List.range snapshot.lineCount).filterMap fun index =>
        (snapshot.line? index).bind (check index) := by
  rw [Snapshot.lines, List.filterMap_filterMap]
  refine List.filterMap_congr fun index _ => ?_
  cases snapshot.line? index <;> rfl

/-- A check of single lines covers the lines that it objects to. -/
theorem covers_lines (check : Nat → List Char → Option LintFinding) {faulty : List Char → Prop}
    {shows : Nat → List Char → LintFinding → Prop}
    (objects : ∀ index line, (check index line).isSome = true ↔ faulty line)
    (tells : ∀ index line finding, snapshot.line? index = some line →
      check index line = some finding → shows index line finding) :
    Covers (fun index => ∃ line, snapshot.line? index = some line ∧ faulty line)
      (fun index finding => ∃ line, snapshot.line? index = some line ∧ shows index line finding)
      (snapshot.lines.filterMap fun (index, line) => check index line) := by
  rw [filterMap_lines]
  refine covers_filterMap (fun index => ?_) fun index finding found => ?_
  · constructor
    · rintro ⟨line, there, bad⟩
      refine ⟨Snapshot.lt_lineCount_of_line? there, ?_⟩
      rw [there, Option.bind_some, objects]
      exact bad
    · rintro ⟨-, found⟩
      cases there : snapshot.line? index with
      | none =>
          rw [there] at found
          cases found
      | some line =>
          rw [there, Option.bind_some, objects] at found
          exact ⟨line, rfl, found⟩
  · obtain ⟨line, there, found⟩ := Option.bind_eq_some_iff.mp found
    exact ⟨line, there, tells index line finding there found⟩

/-- The line ends in a space or a tab. -/
def EndsInBlank (line : List Char) : Prop :=
  ∃ c ∈ line.getLast?, c = ' ' ∨ c = '\t'

/-- The number is the index of the first character of the longest suffix of spaces and tabs. -/
def BlankFrom (line : List Char) (start : Nat) : Prop :=
  ∃ visible blanks, line = visible ++ blanks ∧ visible.length = start ∧
    (∀ c ∈ blanks, c = ' ' ∨ c = '\t') ∧ ¬ EndsInBlank visible

theorem isTrailing_eq_true_iff {c : Char} : isTrailing c = true ↔ c = ' ' ∨ c = '\t' := by
  rw [isTrailing, Bool.or_eq_true, beq_iff_eq, beq_iff_eq]

theorem isSome_trailingIn_iff : (trailingIn index line).isSome = true ↔ EndsInBlank line := by
  rw [EndsInBlank]
  simp only [← isTrailing_eq_true_iff, ← Text.length_trimEnd_ne_iff, trailingIn]
  split <;> simp_all

theorem blankFrom_length_trimEnd (line : List Char) :
    BlankFrom line (Text.trimEnd isTrailing line).length := by
  obtain ⟨blanks, parts, dropped⟩ := Text.exists_eq_trimEnd_append isTrailing line
  refine ⟨_, blanks, parts, rfl, fun c member => isTrailing_eq_true_iff.mp (dropped c member), ?_⟩
  rintro ⟨c, last, blank⟩
  have visible := Text.drop_getLast?_trimEnd last
  rw [isTrailing_eq_true_iff.mpr blank] at visible
  cases visible

/-- What is found on a line that ends in blanks. -/
structure ShowsBlanks (index : Nat) (line : List Char) (finding : LintFinding) : Prop where
  message : finding.message = "trailing whitespace"
  onLine : finding.position.line.toNat = index
  character : BlankFrom line finding.position.character.toNat

/-- What is found on a line that is too long. -/
structure ShowsLength (limit index : Nat) (line : List Char) (finding : LintFinding) : Prop where
  message : finding.message = "exceeds maximum line length of " ++ toString limit ++ " (" ++
    toString line.length ++ " characters)"
  onLine : finding.position.line.toNat = index
  character : finding.position.character.toNat = limit

variable {text : String} (path : SourcePath) (config : LintConfig)

/-- The rule about the ends of lines covers the lines that end in blanks. -/
theorem trailingWhitespace_covers (small : Text.byteLength text.toList < UInt32.size) :
    let snapshot := Snapshot.capture path text
    Covers (fun index => ∃ line, snapshot.line? index = some line ∧ EndsInBlank line)
      (fun index finding => ∃ line, snapshot.line? index = some line ∧
        ShowsBlanks index line finding)
      (trailingWhitespace.check config snapshot) := by
  refine covers_lines trailingIn (fun _ _ => isSome_trailingIn_iff)
    fun index line finding there found => ?_
  rw [trailingIn, Option.ite_none_left_eq_some, Option.some_inj] at found
  obtain ⟨-, rfl⟩ := found
  have inside : (Text.trimEnd isTrailing line).length ≤ line.length :=
    (List.rdropWhile_prefix isTrailing line).length_le
  obtain ⟨lineRead, characterRead⟩ := Snapshot.toNat_ofNat_of_line? small there inside
  refine ⟨rfl, lineRead, ?_⟩
  rw [characterRead]
  exact blankFrom_length_trimEnd line

/-- The rule about long lines covers the lines that have more characters than the limit. -/
theorem maxLineLength_covers (small : Text.byteLength text.toList < UInt32.size) :
    let snapshot := Snapshot.capture path text
    Covers (fun index => ∃ line, snapshot.line? index = some line ∧
        config.maxLineLength < line.length)
      (fun index finding => ∃ line, snapshot.line? index = some line ∧
        ShowsLength config.maxLineLength index line finding)
      (maxLineLength.check config snapshot) := by
  refine covers_lines (tooLong config.maxLineLength) (fun index line => ?_)
    fun index line finding there found => ?_
  · rw [tooLong, Option.isSome_ite]
  · rw [tooLong, Option.ite_none_right_eq_some, Option.some_inj] at found
    obtain ⟨longer, rfl⟩ := found
    obtain ⟨lineRead, characterRead⟩ :=
      Snapshot.toNat_ofNat_of_line? small there (Nat.le_of_lt longer)
    exact ⟨by simp only [String.append_assoc], lineRead, characterRead⟩

/-- Findings on later lines have later positions. -/
theorem position_lt_of_line {left right : Nat} {finding other : LintFinding}
    (leftLine : finding.position.line.toNat = left) (rightLine : other.position.line.toNat = right)
    (later : left < right) : finding.position < other.position :=
  Position.lt_iff.mpr (.inl (by rwa [leftLine, rightLine]))

end Lines

section Tokens

variable {text : String} {previous : Option TokenKind} {tokens : List Token} {token : Token}

theorem debuggerTokens_sublist (previous : Option TokenKind) (tokens : List Token) :
    (debuggerTokens previous tokens).Sublist tokens := by
  induction tokens generalizing previous with
  | nil => exact .slnil
  | cons first rest inductionHypothesis =>
      rw [debuggerTokens]
      split
      · exact (inductionHypothesis _).cons_cons first
      · exact (inductionHypothesis _).cons first

/-- The keywords that are found are those with no dot before them, where `previous` stands before
the first token. -/
theorem mem_debuggerTokens :
    token ∈ debuggerTokens previous tokens ↔ ∃ before after, tokens = before ++ token :: after ∧
      token.kind = .identifier ∧ token.text = "debugger" ∧
        (before.getLast?.map Token.kind).or previous ≠ some (.punctuation '.') := by
  induction tokens generalizing previous with
  | nil => simp [debuggerTokens]
  | cons first rest inductionHypothesis =>
      have further : ∀ before : List Token,
          ((first :: before).getLast?.map Token.kind).or previous =
            (before.getLast?.map Token.kind).or (some first.kind) := fun before => by
        rw [List.getLast?_cons]
        cases before.getLast? <;> rfl
      have here : token ∈ debuggerTokens previous (first :: rest) ↔
          (token = first ∧ token.kind = .identifier ∧ token.text = "debugger" ∧
            previous ≠ some (.punctuation '.')) ∨
          token ∈ debuggerTokens (some first.kind) rest := by
        rw [debuggerTokens]
        split
        · next keyword =>
            rw [List.mem_cons]
            refine or_congr_left ⟨?_, And.left⟩
            rintro rfl
            exact ⟨rfl, keyword⟩
        · next other =>
            refine ⟨.inr, ?_⟩
            rintro (⟨rfl, keyword⟩ | later)
            · exact absurd keyword other
            · exact later
      rw [here, inductionHypothesis]
      constructor
      · rintro (⟨rfl, kind, name, undotted⟩ | ⟨before, after, rfl, kind, name, undotted⟩)
        · exact ⟨[], rest, rfl, kind, name, undotted⟩
        · exact ⟨first :: before, after, rfl, kind, name, by rwa [further]⟩
      · rintro ⟨before, after, cut, kind, name, undotted⟩
        cases before with
        | nil =>
            obtain ⟨rfl, rfl⟩ := List.cons.inj cut
            exact .inl ⟨rfl, kind, name, undotted⟩
        | cons head before =>
            obtain ⟨rfl, rfl⟩ := List.cons.inj cut
            rw [further] at undotted
            exact .inr ⟨before, after, rfl, kind, name, undotted⟩

/-- A `debugger` keyword begins at the offset, and the token before it, if there is one, is no
dot. -/
def DebuggerAt (text : String) (start : Nat) : Prop :=
  ∃ before token after, tokenize text = before ++ token :: after ∧ token.start = start ∧
    token.kind = .identifier ∧ token.text = "debugger" ∧
      ∀ previous ∈ before.getLast?, previous.kind ≠ .punctuation '.'

theorem debuggerAt_iff {start : Nat} :
    DebuggerAt text start ↔
      ∃ token ∈ debuggerTokens none (tokenize text), token.start = start := by
  have undotted : ∀ before : List Token,
      (before.getLast?.map Token.kind).or none ≠ some (.punctuation '.') ↔
        ∀ previous ∈ before.getLast?, previous.kind ≠ .punctuation '.' := by
    intro before
    cases before.getLast? <;> simp
  simp only [DebuggerAt, mem_debuggerTokens, undotted]
  constructor
  · rintro ⟨before, token, after, cut, starts, keyword⟩
    exact ⟨token, ⟨before, after, cut, keyword⟩, starts⟩
  · rintro ⟨token, ⟨before, after, cut, keyword⟩, starts⟩
    exact ⟨before, token, after, cut, starts, keyword⟩

/-- Later tokens begin at later offsets. -/
theorem pairwise_start_tokenize (text : String) :
    (tokenize text).Pairwise fun left right => left.start < right.start := by
  obtain ⟨apart, inside⟩ := (ByteGrammar.lexed_scan 0 text.toList).bounds
  rw [← Piece.tokenize_eq_scan] at apart inside
  exact apart.imp_of_mem fun member _ ends =>
    Nat.lt_of_lt_of_le (inside _ member).2.1 ends

/-- A token begins between two characters. -/
theorem start_mem_boundaries (member : token ∈ tokenize text) :
    token.start ∈ Text.boundaries text.toList := by
  obtain ⟨before, after, whole, starts, -⟩ := Piece.mem_scan member
  exact ⟨before, _, whole, by rw [starts, Nat.zero_add]⟩

/-- The rule about `debugger` statements covers these keywords. -/
theorem noDebugger_covers (path : SourcePath) (config : LintConfig) (text : String) :
    let snapshot := Snapshot.capture path text
    Covers (DebuggerAt text)
      (fun start finding =>
        finding = ⟨"use of debugger statement", snapshot.positionAt start⟩)
      (noDebugger.check config snapshot) := by
  refine ⟨(debuggerTokens none (tokenize text)).map Token.start, ?_, fun start => ?_, ?_⟩
  · exact List.pairwise_map.mpr
      ((pairwise_start_tokenize text).sublist (debuggerTokens_sublist none _))
  · rw [List.mem_map, debuggerAt_iff]
  · exact List.forall₂_map_left_iff.mpr (List.forall₂_map_right_iff.mpr
      (List.forall₂_same.mpr fun token _ => rfl))

end Tokens

/-- Each built-in rule finds exactly what it is about, once, and in strictly increasing order of
positions: the lines that end in blanks, where the blanks begin; the `debugger` keywords behind no
dot, where they begin; and the lines with more characters than the limit, at the limit. -/
theorem builtin_covers (path : SourcePath) (text : String) (config : LintConfig)
    (small : text.toUTF8.size < UInt32.size) :
    let snapshot := Snapshot.capture path text
    Covers (fun index => ∃ line, snapshot.line? index = some line ∧ EndsInBlank line)
        (fun index finding => ∃ line, snapshot.line? index = some line ∧
          ShowsBlanks index line finding)
        (trailingWhitespace.check config snapshot) ∧
      Covers (fun index => ∃ line, snapshot.line? index = some line ∧
          config.maxLineLength < line.length)
        (fun index finding => ∃ line, snapshot.line? index = some line ∧
          ShowsLength config.maxLineLength index line finding)
        (maxLineLength.check config snapshot) ∧
      Covers (DebuggerAt text)
        (fun start finding =>
          finding = ⟨"use of debugger statement", snapshot.positionAt start⟩)
        (noDebugger.check config snapshot) ∧
      ∀ rule ∈ builtin, (rule.check config snapshot).Pairwise fun left right =>
        left.position < right.position := by
  rw [Text.size_toUTF8] at small
  have blanks := trailingWhitespace_covers path config small
  have lengths := maxLineLength_covers path config small
  have keywords := noDebugger_covers path config text
  refine ⟨blanks, lengths, keywords, fun rule member => ?_⟩
  rcases mem_builtin.mp member with rfl | rfl | rfl
  · exact blanks.pairwise_lt fun _ _ ⟨_, _, left⟩ ⟨_, _, right⟩ =>
      position_lt_of_line left.onLine right.onLine
  · refine keywords.pairwise_lt ?_
    rintro left right _ _ leftKeyword rightKeyword rfl rfl later
    obtain ⟨token, leftToken, rfl⟩ := debuggerAt_iff.mp leftKeyword
    obtain ⟨other, rightToken, rfl⟩ := debuggerAt_iff.mp rightKeyword
    have inside := (debuggerTokens_sublist none (tokenize text)).subset
    exact Snapshot.strictMonoOn_positionAt path small (start_mem_boundaries (inside leftToken))
      (start_mem_boundaries (inside rightToken)) later
  · exact lengths.pairwise_lt fun _ _ ⟨_, _, left⟩ ⟨_, _, right⟩ =>
      position_lt_of_line left.onLine right.onLine

/-- Blanks behind an accented letter and in front of both characters of a line break. -/
theorem builtin_covers_accented :
    let text := "é \t\r\na.debugger; debugger"
    let snapshot := Snapshot.capture ⟨"/p/a.ts"⟩ text
    text.toUTF8.size < UInt32.size ∧ noDebugger ∈ builtin ∧
      trailingWhitespace.check ⟨[], 20⟩ snapshot = [⟨"trailing whitespace", ⟨0, 1⟩⟩] ∧
      (∃ line, snapshot.line? 0 = some line ∧ BlankFrom line 1) ∧
      (noDebugger.check ⟨[], 20⟩ snapshot).Pairwise fun left right =>
        left.position < right.position := by
  have evaluated : trailingWhitespace.check ⟨[], 20⟩
      (Snapshot.capture ⟨"/p/a.ts"⟩ "é \t\r\na.debugger; debugger") =
        [⟨"trailing whitespace", ⟨0, 1⟩⟩] := by
    decide +kernel
  intro text snapshot
  have small : text.toUTF8.size < UInt32.size := by decide +kernel
  have member : noDebugger ∈ builtin := by simp [builtin]
  obtain ⟨⟨numbers, -, -, shown⟩, -, -, increasing⟩ :=
    builtin_covers ⟨"/p/a.ts"⟩ text ⟨[], 20⟩ small
  refine ⟨small, member, evaluated, ?_, increasing _ member⟩
  rw [evaluated] at shown
  obtain ⟨number, -, line, there, shows⟩ := exists_shows_of_mem shown List.mem_cons_self
  obtain rfl : 0 = number := shows.onLine
  exact ⟨line, there, shows.character⟩

end LintRule

end ScriptAnalysis
