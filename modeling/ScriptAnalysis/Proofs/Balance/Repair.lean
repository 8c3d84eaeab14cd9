import ScriptAnalysis.Proofs.Balance.Blame
import ScriptAnalysis.Proofs.Text.Offsets
import ScriptAnalysis.Proofs.Token.Pieces

/-!
# Repairing the brackets of a script

What the balance check reports says how to mend the brackets of a script: `Bracket.repaired` leaves
out the closers that are reported as strays, and writes the brackets that are reported as missing
before the closer where they are reported, or at the end. The result is well nested
(`DelimiterEngine.findings_repair`). A step reports brackets at its own closer only
(`Balance.closer_of_mem_step`), so what is reported at a closer is what its step has reported.
-/

namespace ScriptAnalysis

namespace Token

/-- The token is a closing bracket. -/
def IsCloser (token : Token) : Prop :=
  ∃ bracket : Bracket, token.kind = .punctuation bracket.closer

/-- A token opens a bracket, closes one, or is none. -/
theorem bracket_cases (token : Token) :
    (∃ bracket : Bracket, token.kind = .punctuation bracket.opener) ∨ token.IsCloser ∨
      token.bracket? = none := by
  obtain ⟨kind, start, stop, lexeme⟩ := token
  cases kind with
  | punctuation c =>
      by_cases known : c ∈ ['(', ')', '[', ']', '\x7b', '\x7d']
      · simp only [List.mem_cons, List.not_mem_nil, or_false] at known
        rcases known with rfl | rfl | rfl | rfl | rfl | rfl
        · exact .inl ⟨.round, rfl⟩
        · exact .inr (.inl ⟨.round, rfl⟩)
        · exact .inl ⟨.square, rfl⟩
        · exact .inr (.inl ⟨.square, rfl⟩)
        · exact .inl ⟨.curly, rfl⟩
        · exact .inr (.inl ⟨.curly, rfl⟩)
      · exact .inr (.inr (if_neg known))
  | _ => exact .inr (.inr rfl)

/-- Tokens that follow each other from one place to another, none of them empty. -/
inductive Ascend : Nat → List Token → Nat → Prop where
  | nil {place size : Nat} (inside : place ≤ size) : Ascend place [] size
  | cons {place size : Nat} {token : Token} {rest : List Token} (starts : place ≤ token.start)
      (some : token.start < token.stop) (later : Ascend token.stop rest size) :
      Ascend place (token :: rest) size

theorem Ascend.of_le {place earlier size : Nat} {tokens : List Token}
    (ascend : Ascend place tokens size) (le : earlier ≤ place) : Ascend earlier tokens size := by
  cases ascend with
  | nil inside => exact .nil (le.trans inside)
  | cons starts some later => exact .cons (le.trans starts) some later

theorem ascend_scan (start : Nat) (script : List Char) :
    Ascend start (Piece.scan start script) (start + Text.byteLength script) := by
  induction script using Piece.script_induction generalizing start with
  | nil =>
      rw [Piece.scan_nil]
      exact .nil (Nat.le_add_right _ _)
  | piece piece after leads inductionHypothesis =>
      have later := inductionHypothesis (start + Text.byteLength piece.chars)
      rw [leads.scan_append, Text.byteLength_append, ← Nat.add_assoc]
      cases piece with
      | lexeme kind lexeme =>
          have some : lexeme ≠ [] := by cases leads <;> exact List.cons_ne_nil _ _
          have long := (List.length_pos_iff.mpr some).trans_le (Text.length_le_byteLength lexeme)
          exact .cons le_rfl (Nat.lt_add_of_pos_right long) later
      | _ => exact later.of_le (Nat.le_add_right _ _)

end Token

namespace Bracket

/-- What becomes of a token in a repair: a stray is left out, and what is expected at a closer is
written before it. -/
def mended (token : Token) (isStray : Bool) (expected : List Char) : List Char :=
  match token.bracket? with
  | none => []
  | some c =>
      if (ofCloser? c).isNone then [c]
      else if isStray then []
      else expected ++ [c]

/-- The brackets of a script after a repair, by what is reported at each offset. What is expected at
the end is written there. -/
def repaired (tokens : List Token) (size : Nat) (isStray : Nat → Bool)
    (expected : Nat → List Char) : List Char :=
  (tokens.flatMap fun token => mended token (isStray token.start) (expected token.start)) ++
    expected size

section Mended

variable {token : Token} {bracket : Bracket}

theorem mended_of_opener (kind : token.kind = .punctuation bracket.opener) (isStray : Bool)
    (expected : List Char) : mended token isStray expected = [bracket.opener] := by
  have unknown : ofCloser? bracket.opener = none := by cases bracket <;> rfl
  simp only [mended, Token.bracket?_of_opener kind, unknown, Option.isNone_none, if_true]

theorem mended_of_closer (kind : token.kind = .punctuation bracket.closer) (isStray : Bool)
    (expected : List Char) :
    mended token isStray expected =
      if isStray then [] else expected ++ [bracket.closer] := by
  simp [mended, Token.bracket?_of_closer kind]

theorem mended_of_other (other : token.bracket? = none) (isStray : Bool) (expected : List Char) :
    mended token isStray expected = [] := by
  simp only [mended, other]

theorem repaired_cons (token : Token) (rest : List Token) (size : Nat) (isStray : Nat → Bool)
    (expected : Nat → List Char) :
    repaired (token :: rest) size isStray expected =
      mended token (isStray token.start) (expected token.start) ++
        repaired rest size isStray expected := by
  rw [repaired, List.flatMap_cons, List.append_assoc]
  rfl

end Mended

/-- Closing open brackets one after the other leaves those outside. -/
theorem closes_closers_iff {inner outer : List Bracket} {word : List Char} :
    Closes (inner ++ outer) (inner.map closer ++ word) ↔ Closes outer word := by
  induction inner with
  | nil => rfl
  | cons bracket inner inductionHypothesis =>
      rw [List.map_cons, List.cons_append, List.cons_append, closes_closer_iff]
      simp [inductionHypothesis]

/-- The closers of what is open close it. -/
theorem closes_closers (opened : List Bracket) : Closes opened (opened.map closer) := by
  induction opened with
  | nil => exact .empty
  | cons bracket outer inductionHypothesis =>
      exact closes_closer_iff.mpr ⟨outer, rfl, inductionHypothesis⟩

end Bracket

namespace Balance

variable {size place offset : Nat} {token : Token} {tokens : List Token} {opened : List Bracket}
  {finding : Finding}

/-- The bracket that the finding says is missing. -/
def Finding.missing? (finding : Finding) : Option Bracket :=
  match finding.imbalance with
  | .unclosed bracket => some bracket
  | _ => none

/-- The finding is about a bracket. -/
def Finding.IsBracket (finding : Finding) : Prop :=
  finding.imbalance = .stray ∨ finding.missing?.isSome

/-- The brackets that are reported as missing at an offset, in the order of the report. -/
def missingAt (offset : Nat) (findings : List Finding) : List Bracket :=
  (findings.filter fun finding => finding.offset = offset).filterMap Finding.missing?

theorem missingAt_append (left right : List Finding) :
    missingAt offset (left ++ right) = missingAt offset left ++ missingAt offset right := by
  rw [missingAt, List.filter_append, List.filterMap_append]
  rfl

theorem missingAt_unclosedAt (offset : Nat) (brackets : List Bracket) :
    missingAt offset (unclosedAt offset brackets) = brackets := by
  simp [missingAt, unclosedAt, List.filter_map, List.filterMap_map, Function.comp_def,
    Finding.missing?]

theorem missingAt_eq_nil {findings : List Finding}
    (elsewhere : ∀ finding ∈ findings, finding.IsBracket → finding.offset ≠ offset) :
    missingAt offset findings = [] := by
  refine List.filterMap_eq_nil_iff.mpr fun finding member => ?_
  obtain ⟨there, here⟩ := List.mem_filter.mp member
  by_contra missing
  exact elsewhere finding there (.inr (Option.isSome_iff_ne_none.mpr missing))
    (of_decide_eq_true here)

/-- A closer without partner is a stray. Otherwise what was opened since its partner is reported,
and the partner is closed. -/
theorem close_cases (bracket : Bracket) (offset : Nat) (opened : List Bracket) :
    close bracket offset opened = ([⟨.stray, offset⟩], opened) ∨
      ∃ inner outer, opened = inner ++ bracket :: outer ∧
        close bracket offset opened = (unclosedAt offset inner, outer) := by
  have whole := List.takeWhile_append_dropWhile (p := (· ≠ bracket)) (l := opened)
  have first := List.head?_dropWhile_not (· ≠ bracket) opened
  rw [close]
  cases found : opened.dropWhile (· ≠ bracket) with
  | nil => exact .inl rfl
  | cons partner outer =>
      rw [found, List.head?_cons] at first
      obtain rfl : partner = bracket := by simpa using first
      exact .inr ⟨_, outer, by rw [← found, whole], rfl⟩

theorem step_of_opener {bracket : Bracket} (kind : token.kind = .punctuation bracket.opener) :
    step size token opened = ([], bracket :: opened) := by
  rw [step, kind]
  simp only [Bracket.ofOpener?_opener]

theorem step_of_closer {bracket : Bracket} (kind : token.kind = .punctuation bracket.closer) :
    step size token opened = close bracket token.start opened := by
  have unopened : Bracket.ofOpener? bracket.closer = none := by cases bracket <;> rfl
  rw [step, kind]
  simp only [unopened, Bracket.ofCloser?_closer]

/-- What is no bracket leaves the open brackets alone and reports none. -/
theorem step_of_other (other : token.bracket? = none) :
    (step size token opened).2 = opened ∧
      ∀ finding ∈ (step size token opened).1, ¬ finding.IsBracket := by
  obtain ⟨kind, start, stop, lexeme⟩ := token
  cases kind with
  | punctuation c =>
      have unknown : Bracket.ofOpener? c = none ∧ Bracket.ofCloser? c = none := by
        grind [Token.bracket?, Bracket.ofOpener?, Bracket.ofCloser?]
      simp [step, unknown]
  | string terminated =>
      cases terminated <;> simp [step, Finding.IsBracket, Finding.missing?]
  | template terminated =>
      cases terminated <;> simp [step, Finding.IsBracket, Finding.missing?]
  | openComment => simp [step, Finding.IsBracket, Finding.missing?]
  | _ => simp [step]

/-- Brackets are reported at a closer, by its own step. -/
theorem closer_of_mem_step (member : finding ∈ (step size token opened).1)
    (about : finding.IsBracket) : token.IsCloser ∧ finding.offset = token.start := by
  rcases token.bracket_cases with ⟨bracket, kind⟩ | ⟨bracket, kind⟩ | other
  · rw [step_of_opener kind] at member
    cases member
  · refine ⟨⟨bracket, kind⟩, ?_⟩
    rw [step_of_closer kind] at member
    rcases close_cases bracket token.start opened with stray | ⟨inner, outer, _, closed⟩
    · rw [stray, List.mem_singleton] at member
      rw [member]
    · rw [closed] at member
      obtain ⟨missing, _, rfl⟩ := List.mem_map.mp member
      rfl
  · exact absurd about ((step_of_other other).2 finding member)

/-- From a place on, brackets are reported there or later. -/
theorem le_offset_of_mem_walk (ascend : Token.Ascend place tokens size)
    (member : finding ∈ walk size opened tokens) (about : finding.IsBracket) :
    place ≤ finding.offset := by
  induction ascend generalizing opened with
  | nil inside =>
      obtain ⟨bracket, _, rfl⟩ := List.mem_map.mp member
      exact inside
  | cons starts some later inductionHypothesis =>
      rw [walk_cons, List.mem_append] at member
      rcases member with here | there
      · rw [(closer_of_mem_step here about).2]
        exact starts
      · exact (starts.trans some.le).trans (inductionHypothesis there)

theorem stray_notMem_unclosedAt (brackets : List Bracket) :
    ⟨.stray, offset⟩ ∉ unclosedAt offset brackets := by
  simp [unclosedAt]

/-- What a step reports mends its token: with what closes the brackets that are open behind it, the
token closes those that are open before it. -/
theorem closes_mended (size : Nat) {isStray : Bool} {expected word : List Char}
    (strays : isStray = true ↔ ⟨.stray, token.start⟩ ∈ (step size token opened).1)
    (missing : expected = (missingAt token.start (step size token opened).1).map Bracket.closer)
    (later : Bracket.Closes (step size token opened).2 word) :
    Bracket.Closes opened (Bracket.mended token isStray expected ++ word) := by
  rcases token.bracket_cases with ⟨bracket, kind⟩ | ⟨bracket, kind⟩ | other
  · rw [step_of_opener kind] at later
    rw [Bracket.mended_of_opener kind, List.singleton_append, Bracket.closes_opener_iff]
    exact later
  · rw [step_of_closer kind] at strays missing later
    rw [Bracket.mended_of_closer kind]
    rcases close_cases bracket token.start opened with alone | ⟨inner, outer, rfl, closed⟩
    · rw [alone, List.mem_singleton] at strays
      rw [alone] at later
      rw [if_pos (strays.mpr rfl)]
      exact later
    · rw [closed] at strays missing later
      rw [missingAt_unclosedAt] at missing
      rw [if_neg (mt strays.mp (stray_notMem_unclosedAt inner)), missing, List.append_assoc,
        Bracket.closes_closers_iff, List.singleton_append, Bracket.closes_closer_iff]
      exact ⟨outer, rfl, later⟩
  · rw [(step_of_other other).1] at later
    rw [Bracket.mended_of_other other]
    exact later

/-- What the check reports makes the rest of a script close what is open: read from a place on, the
report says which closers are strays and what is missing at each offset. -/
theorem closes_repaired {isStray : Nat → Bool} {expected : Nat → List Char}
    (ascend : Token.Ascend place tokens size)
    (strays : ∀ offset, place ≤ offset →
      (isStray offset = true ↔ ⟨.stray, offset⟩ ∈ walk size opened tokens))
    (missing : ∀ offset, place ≤ offset →
      expected offset = (missingAt offset (walk size opened tokens)).map Bracket.closer) :
    Bracket.Closes opened (Bracket.repaired tokens size isStray expected) := by
  induction ascend generalizing opened with
  | nil inside =>
      rw [Bracket.repaired, missing _ inside, walk, missingAt_unclosedAt]
      exact Bracket.closes_closers opened
  | @cons place size token rest starts some later inductionHypothesis =>
      simp only [walk_cons, List.mem_append, missingAt_append, List.map_append] at strays missing
      -- The step reports at its own place only, and all later steps report behind it.
      have here : ∀ finding ∈ (step size token opened).1, finding.IsBracket →
          finding.offset = token.start :=
        fun finding member about => (closer_of_mem_step member about).2
      have behind : ∀ finding ∈ walk size (step size token opened).2 rest, finding.IsBracket →
          token.stop ≤ finding.offset :=
        fun finding member about => le_offset_of_mem_walk later member about
      rw [Bracket.repaired_cons]
      refine closes_mended size ?_ ?_ (inductionHypothesis (fun offset beyond => ?_)
        fun offset beyond => ?_)
      · rw [strays _ starts, or_iff_left]
        exact fun member => absurd (behind _ member (.inl rfl)) (Nat.not_le.mpr some)
      · have others : missingAt token.start (walk size (step size token opened).2 rest) = [] :=
          missingAt_eq_nil fun finding member about =>
            (some.trans_le (behind finding member about)).ne'
        rw [missing _ starts, others, List.map_nil, List.append_nil]
      · rw [strays _ (starts.trans (some.le.trans beyond)), or_iff_right]
        exact fun member => absurd (here _ member (.inl rfl)) (some.trans_le beyond).ne'
      · rw [missing _ (starts.trans (some.le.trans beyond)), missingAt_eq_nil, List.map_nil,
          List.nil_append]
        intro finding member about
        rw [here finding member about]
        exact (some.trans_le beyond).ne

theorem count_stray_unclosedAt (offset place : Nat) (brackets : List Bracket) :
    (unclosedAt place brackets).count ⟨.stray, offset⟩ = 0 := by
  refine List.count_eq_zero_of_not_mem fun member => ?_
  obtain ⟨_, _, other⟩ := List.mem_map.mp member
  cases other

/-- A step reports one stray at most. -/
theorem count_stray_step (offset : Nat) :
    (step size token opened).1.count ⟨.stray, offset⟩ ≤ 1 := by
  rcases token.bracket_cases with ⟨bracket, kind⟩ | ⟨bracket, kind⟩ | other
  · rw [step_of_opener kind, List.count_nil]
    exact Nat.zero_le 1
  · rw [step_of_closer kind]
    rcases close_cases bracket token.start opened with alone | ⟨inner, outer, _, closed⟩
    · rw [alone]
      exact List.count_le_length
    · rw [closed, count_stray_unclosedAt]
      exact Nat.zero_le 1
  · rw [List.count_eq_zero_of_not_mem fun member => (step_of_other other).2 _ member (.inl rfl)]
    exact Nat.zero_le 1

/-- Brackets are reported at closers, and those that are missing also at the end. -/
theorem Blames.closer_or_end (blames : Blames size tokens finding) (about : finding.IsBracket) :
    (∃ token ∈ tokens, token.IsCloser ∧ finding.offset = token.start) ∨
      finding.offset = size ∧ finding.imbalance ≠ .stray := by
  cases blames with
  | @stray token member bracket closes => exact .inl ⟨token, member, ⟨bracket, closes⟩, rfl⟩
  | @unclosed token member bracket closes expected =>
      exact .inl ⟨token, member, ⟨bracket, closes⟩, rfl⟩
  | unclosedAtEnd expected => exact .inr ⟨rfl, by simp⟩
  | _ => simp [Finding.IsBracket, Finding.missing?] at about

/-- At no offset two strays are reported. -/
theorem count_stray_walk (ascend : Token.Ascend place tokens size) (offset : Nat) :
    (walk size opened tokens).count ⟨.stray, offset⟩ ≤ 1 := by
  induction ascend generalizing opened with
  | nil inside =>
      rw [walk, count_stray_unclosedAt]
      exact Nat.zero_le 1
  | @cons place size token rest starts some later inductionHypothesis =>
      rw [walk_cons, List.count_append]
      by_cases here : ⟨.stray, offset⟩ ∈ (step size token opened).1
      · -- The step stands at this offset, so no later one does.
        have same : offset = token.start := (closer_of_mem_step here (.inl rfl)).2
        have none : ⟨.stray, offset⟩ ∉ walk size (step size token opened).2 rest := fun member =>
          absurd (le_offset_of_mem_walk later member (.inl rfl)) (Nat.not_le.mpr (same ▸ some))
        rw [List.count_eq_zero_of_not_mem none]
        exact count_stray_step offset
      · rw [List.count_eq_zero_of_not_mem here, Nat.zero_add]
        exact inductionHypothesis

end Balance

/-- The bracket that a diagnostic says is missing: its message names the closer in quotes. -/
def EngineDiagnostic.expected? (diagnostic : EngineDiagnostic) : Option Char :=
  if diagnostic.code = 1005 then diagnostic.message.text.toList[1]? else none

namespace DelimiterEngine

/-- Whether a closer at an offset of a file is reported to be a stray. -/
def isStrayAt (file : SourcePath) (found : List EngineDiagnostic) (offset : Nat) : Bool :=
  found.any fun diagnostic => diagnostic.code = 1128 && diagnostic.location = some ⟨file, offset⟩

/-- The closers that are reported to be missing at an offset of a file, in the order of the
report. -/
def expectedAt (file : SourcePath) (found : List EngineDiagnostic) (offset : Nat) : List Char :=
  (found.filter fun diagnostic => diagnostic.location = some ⟨file, offset⟩).filterMap
    EngineDiagnostic.expected?

/-- A finding as a diagnostic of a file. -/
def diagnostic (file : SourcePath) (finding : Balance.Finding) : EngineDiagnostic :=
  ⟨finding.imbalance.code, .single finding.imbalance.message, some ⟨file, finding.offset⟩⟩

variable {file : SourcePath} {source : String} {finding : Balance.Finding} {offset : Nat}

theorem findings_eq_map (file : SourcePath) (source : String) :
    findings file source = (Balance.check source).map (diagnostic file) := rfl

theorem code_eq_stray_iff : finding.imbalance.code = 1128 ↔ finding.imbalance = .stray := by
  cases finding.imbalance <;> simp [Imbalance.code]

theorem code_eq_unclosed_iff : finding.imbalance.code = 1005 ↔ finding.missing?.isSome := by
  rw [Balance.Finding.missing?]
  cases finding.imbalance <;> simp [Imbalance.code]

/-- The message about a missing bracket has its closer behind the first quote. -/
theorem expected?_diagnostic (file : SourcePath) (finding : Balance.Finding) :
    (diagnostic file finding).expected? = finding.missing?.map Bracket.closer := by
  obtain ⟨imbalance, offset⟩ := finding
  cases imbalance with
  | unclosed bracket =>
      simp [diagnostic, EngineDiagnostic.expected?, Imbalance.code, Imbalance.message,
        MessageChain.single, MessageChain.text, Balance.Finding.missing?]
  | _ => rfl

theorem location_diagnostic_iff :
    (diagnostic file finding).location = some ⟨file, offset⟩ ↔ finding.offset = offset := by
  simp [diagnostic]

/-- A stray among the diagnostics is one among the findings. -/
theorem stray_iff :
    (diagnostic file finding).code = 1128 ∧
        (diagnostic file finding).location = some ⟨file, offset⟩ ↔
      finding = ⟨.stray, offset⟩ := by
  rw [location_diagnostic_iff, diagnostic, code_eq_stray_iff]
  obtain ⟨imbalance, place⟩ := finding
  simp

theorem isStrayAt_findings (file : SourcePath) (source : String) (offset : Nat) :
    isStrayAt file (findings file source) offset = true ↔
      ⟨.stray, offset⟩ ∈ Balance.check source := by
  rw [isStrayAt, findings_eq_map, List.any_map, List.any_eq_true]
  simp only [Function.comp_apply, Bool.and_eq_true, decide_eq_true_eq, stray_iff]
  exact exists_eq_right

theorem expectedAt_findings (file : SourcePath) (source : String) (offset : Nat) :
    expectedAt file (findings file source) offset =
      (Balance.missingAt offset (Balance.check source)).map Bracket.closer := by
  have named : EngineDiagnostic.expected? ∘ diagnostic file =
      fun finding => finding.missing?.map Bracket.closer := funext (expected?_diagnostic file)
  rw [expectedAt, findings_eq_map, List.filter_map, List.filterMap_map, named,
    Balance.missingAt, List.map_filterMap]
  simp only [Function.comp_def, location_diagnostic_iff]

theorem countP_stray (file : SourcePath) (source : String) (offset : Nat) :
    (findings file source).countP (fun diagnostic =>
        diagnostic.code = 1128 && diagnostic.location = some ⟨file, offset⟩) =
      (Balance.check source).count ⟨.stray, offset⟩ := by
  rw [findings_eq_map, List.countP_map, List.count]
  congr 1
  funext finding
  rw [Bool.eq_iff_iff]
  simp [stray_iff]

/-- The brackets of every script are well nested once its closers that are reported as strays are
left out, and the brackets that are reported as missing are written before the closer where they
are reported, or at the end. Strays are reported at closers only, at each of them once at most, and
missing brackets at closers and at the end, each by its name. -/
theorem findings_repair (file : SourcePath) (source : String) :
    let found := findings file source
    let size := Text.byteLength source.toList
    Bracket.WellNested (Bracket.repaired (tokenize source) size (isStrayAt file found)
        (expectedAt file found)) ∧
      (∀ diagnostic ∈ found, diagnostic.code = 1128 →
        ∃ token ∈ tokenize source, token.IsCloser ∧
          diagnostic.location = some ⟨file, token.start⟩) ∧
      (∀ token ∈ tokenize source, token.IsCloser →
        found.countP (fun diagnostic =>
          diagnostic.code = 1128 && diagnostic.location = some ⟨file, token.start⟩) ≤ 1) ∧
      ∀ diagnostic ∈ found, diagnostic.code = 1005 →
        (∃ bracket : Bracket, diagnostic.expected? = some bracket.closer) ∧
          (diagnostic.location = some ⟨file, size⟩ ∨
            ∃ token ∈ tokenize source, token.IsCloser ∧
              diagnostic.location = some ⟨file, token.start⟩) := by
  intro found size
  have ascend : Token.Ascend 0 (tokenize source) size := by
    have scanned := Token.ascend_scan 0 source.toList
    rwa [Nat.zero_add] at scanned
  refine ⟨?_, ?_, ?_, ?_⟩
  · have closes : Bracket.Closes [] (Bracket.repaired (tokenize source) size (isStrayAt file found)
        (expectedAt file found)) :=
      Balance.closes_repaired ascend (fun offset _ => isStrayAt_findings file source offset)
        fun offset _ => expectedAt_findings file source offset
    exact closes
  · intro made member code
    obtain ⟨finding, there, rfl⟩ := List.mem_map.mp member
    have stray : finding.imbalance = .stray := code_eq_stray_iff.mp code
    rcases (Balance.blames_walk there).closer_or_end (.inl stray) with closer | ⟨_, other⟩
    · obtain ⟨token, inside, closes, here⟩ := closer
      exact ⟨token, inside, closes, location_diagnostic_iff.mpr here⟩
    · exact absurd stray other
  · intro token _ _
    rw [countP_stray]
    exact Balance.count_stray_walk ascend token.start
  · intro made member code
    obtain ⟨finding, there, rfl⟩ := List.mem_map.mp member
    have missing : finding.missing?.isSome := code_eq_unclosed_iff.mp code
    constructor
    · obtain ⟨bracket, named⟩ := Option.isSome_iff_exists.mp missing
      refine ⟨bracket, (expected?_diagnostic file finding).trans ?_⟩
      rw [named, Option.map_some]
    · rcases (Balance.blames_walk there).closer_or_end (.inr missing) with closer | ⟨ends, _⟩
      · obtain ⟨token, inside, closes, here⟩ := closer
        exact .inr ⟨token, inside, closes, location_diagnostic_iff.mpr here⟩
      · exact .inl (location_diagnostic_iff.mpr ends)

/-- Two brackets are closed before the brace behind them, the innermost first, a bracket that
nothing has opened is left out, and one is closed at the end. -/
example :
    let source := "\x7b f([ \x7d ] g("
    let found := findings ⟨"/p/a.ts"⟩ source
    Bracket.repaired (tokenize source) (Text.byteLength source.toList)
        (isStrayAt ⟨"/p/a.ts"⟩ found) (expectedAt ⟨"/p/a.ts"⟩ found) =
      ['\x7b', '(', '[', ']', ')', '\x7d', '(', ')'] := by
  decide +kernel

end DelimiterEngine

end ScriptAnalysis
