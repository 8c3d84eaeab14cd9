import ScriptAnalysis.Proofs.Lint.Order

/-!
# Allowing rules

What the built-in rules find does not depend on the allow list, and the order of the findings leaves
no choice. So an allow list only takes away: every further name removes the diagnostics of the rule
that it names and leaves the others where they are (`run_allow_append`). A diagnostic is known
by its label, since no rule has a colon in its name.
-/

namespace ScriptAnalysis

namespace LintRule

variable {rule other : LintRule} {message : String} {position : Option Position}

/-- Whether an allow list names the rule. -/
def allowedBy (rule : LintRule) (allow : List String) : Bool :=
  allow.contains rule.name || allow.contains rule.code

/-- The names and codes by which built-in rules are known. -/
def builtinNames : List String :=
  builtin.flatMap fun rule => [rule.name, rule.code]

/-- Whether the message begins with the name of the rule. -/
def labels (rule : LintRule) (diagnostic : Diagnostic) : Bool :=
  (rule.name ++ ": ").toList.isPrefixOf diagnostic.message.toList

theorem labels_lint (rule : LintRule) (message : String) (position : Option Position) :
    rule.labels (Diagnostic.lint rule.name message position) = true := by
  have parts : (rule.name ++ ": " ++ message).toList =
      (rule.name ++ ": ").toList ++ message.toList := String.toList_append
  rw [labels, Diagnostic.lint, parts, List.isPrefixOf_iff_prefix]
  exact List.prefix_append _ _

/-- A label ends at the first colon. -/
theorem name_eq_of_labels (whole : ':' ∉ rule.name.toList) (otherWhole : ':' ∉ other.name.toList)
    (labeled : other.labels (Diagnostic.lint rule.name message position) = true) :
    other.name = rule.name := by
  have upTo : ∀ name rest : List Char, ':' ∉ name →
      (name ++ ':' :: rest).takeWhile (· ≠ ':') = name := by
    intro name rest free
    have kept : ∀ c ∈ name, decide (c ≠ ':') = true := fun c member =>
      decide_eq_true (ne_of_mem_of_not_mem member free)
    rw [List.takeWhile_append_of_pos kept, List.takeWhile_cons_of_neg (by decide), List.append_nil]
  rw [labels, Diagnostic.lint, List.isPrefixOf_iff_prefix] at labeled
  obtain ⟨rest, same⟩ := labeled
  have colon : ": ".toList = [':', ' '] := by decide
  simp only [String.toList_append, colon, List.append_assoc, List.cons_append] at same
  refine String.toList_inj.mp ?_
  rw [← upTo _ _ otherWhole, same, upTo _ _ whole]

/-- Of the built-in rules only its own one labels a finding. -/
theorem labels_lint_iff (member : rule ∈ builtin) (otherMember : other ∈ builtin) :
    other.labels (Diagnostic.lint rule.name message position) = true ↔ other = rule := by
  have colonless : ∀ rule ∈ builtin, ':' ∉ rule.name.toList := by decide
  have distinct : (builtin.map name).Nodup := by decide
  constructor
  · intro labeled
    exact List.inj_on_of_nodup_map distinct otherMember member
      (name_eq_of_labels (colonless rule member) (colonless other otherMember) labeled)
  · rintro rfl
    exact other.labels_lint message position

/-- What a built-in rule finds does not depend on the allow list. -/
theorem check_allow (member : rule ∈ builtin) (allow others : List String) (limit : Nat)
    (snapshot : Snapshot) :
    rule.check ⟨allow, limit⟩ snapshot = rule.check ⟨others, limit⟩ snapshot := by
  rcases mem_builtin.mp member with rfl | rfl | rfl <;> rfl

theorem allowedBy_append (rule : LintRule) (allow more : List String) :
    rule.allowedBy (allow ++ more) = (rule.allowedBy allow || rule.allowedBy more) := by
  simp only [allowedBy, List.contains_append]
  grind

/-- Only the known names in an allow list count. -/
theorem allowedBy_congr {allow others : List String} (member : rule ∈ builtin)
    (same : ∀ name ∈ builtinNames, name ∈ others ↔ name ∈ allow) :
    rule.allowedBy others = rule.allowedBy allow := by
  have known : ∀ name ∈ [rule.name, rule.code], others.contains name = allow.contains name := by
    intro name named
    rw [Bool.eq_iff_iff, List.contains_iff_mem, List.contains_iff_mem]
    exact same name (List.mem_flatMap.mpr ⟨rule, member, named⟩)
  rw [allowedBy, allowedBy, known rule.name (by simp), known rule.code (by simp)]

end LintRule

namespace Linter

variable {snapshot : Snapshot} {limit : Nat} {allow : List String} {occurrence : Occurrence}

theorem Occurrence.IsFound.mem {rules : List LintRule} {config : LintConfig}
    (found : occurrence.IsFound rules config snapshot) : occurrence.rule ∈ rules :=
  List.mem_of_getElem? found.registered

theorem Occurrence.IsFound.finding_mem {rules : List LintRule} {config : LintConfig}
    (found : occurrence.IsFound rules config snapshot) :
    occurrence.finding ∈ occurrence.rule.check config snapshot :=
  List.mem_of_getElem? found.listed

/-- An allow list only decides which of the findings are left out. -/
theorem isFound_allow_iff :
    occurrence.IsFound LintRule.builtin ⟨allow, limit⟩ snapshot ↔
      occurrence.IsFound LintRule.builtin ⟨[], limit⟩ snapshot ∧
        occurrence.rule.allowedBy allow = false := by
  have named : occurrence.rule.allowedBy allow = false ↔
      occurrence.rule.name ∉ allow ∧ occurrence.rule.code ∉ allow := by
    simp [LintRule.allowedBy]
  rw [named]
  constructor
  · intro found
    have listed := found.listed
    rw [LintRule.check_allow found.mem allow []] at listed
    exact ⟨⟨found.registered, List.not_mem_nil, List.not_mem_nil, listed⟩, found.name_notMem,
      found.code_notMem⟩
  · rintro ⟨found, name, code⟩
    have listed := found.listed
    rw [LintRule.check_allow found.mem [] allow] at listed
    exact ⟨found.registered, name, code, listed⟩

theorem mem_occurrences_allow :
    occurrence ∈ (ofConfig ⟨allow, limit⟩).occurrences snapshot ↔
      occurrence.IsFound LintRule.builtin ⟨[], limit⟩ snapshot ∧
        occurrence.rule.allowedBy allow = false :=
  (mem_occurrences _ snapshot).trans isFound_allow_iff

/-- More allowed names take occurrences away and leave the others in their order. -/
theorem occurrences_allow_append (allow more : List String) (limit : Nat) (snapshot : Snapshot) :
    (ofConfig ⟨allow ++ more, limit⟩).occurrences snapshot =
      ((ofConfig ⟨allow, limit⟩).occurrences snapshot).filter fun occurrence =>
        !occurrence.rule.allowedBy more := by
  refine Occurrence.eq_of_pairwise_before (pairwise_occurrences _ _)
    ((pairwise_occurrences _ _).filter _) fun occurrence => ?_
  rw [List.mem_filter, mem_occurrences_allow, mem_occurrences_allow, LintRule.allowedBy_append,
    Bool.or_eq_false_iff, Bool.not_eq_true', and_assoc]

/-- Allow lists with the same known names leave the same occurrences. -/
theorem occurrences_allow_congr {others : List String}
    (same : ∀ name ∈ LintRule.builtinNames, name ∈ others ↔ name ∈ allow) (limit : Nat)
    (snapshot : Snapshot) :
    (ofConfig ⟨others, limit⟩).occurrences snapshot =
      (ofConfig ⟨allow, limit⟩).occurrences snapshot := by
  refine Occurrence.eq_of_pairwise_before (pairwise_occurrences _ _) (pairwise_occurrences _ _)
    fun occurrence => ?_
  rw [mem_occurrences_allow, mem_occurrences_allow]
  exact and_congr_right fun found => by rw [LintRule.allowedBy_congr found.mem same]

/-- An occurrence is reported as its rule and its finding say. -/
theorem entry_eq_lint (occurrence : Occurrence) :
    occurrence.entry = Diagnostic.lint occurrence.rule.name occurrence.finding.message
      (some occurrence.finding.position) := rfl

/-- Allowing more names takes the diagnostics of the rules with these names or codes out of the
report, and all others stay in their order. Here a diagnostic is one of a rule exactly if it reports
what the rule finds. Neither the order of an allow list nor repeated or unknown names make a
difference. -/
theorem run_allow_append (allow more : List String) (limit : Nat) (snapshot : Snapshot) :
    let report := fun names => (ofConfig ⟨names, limit⟩).run snapshot
    report (allow ++ more) = (report allow).filter (fun diagnostic =>
        !LintRule.builtin.any fun rule => rule.allowedBy more && rule.labels diagnostic) ∧
      (∀ rule ∈ LintRule.builtin, ∀ diagnostic ∈ report allow,
        rule.labels diagnostic = true ↔ ∃ finding ∈ rule.check ⟨allow, limit⟩ snapshot,
          diagnostic = Diagnostic.lint rule.name finding.message (some finding.position)) ∧
      ∀ others, (∀ name ∈ LintRule.builtinNames, name ∈ others ↔ name ∈ allow) →
        report others = report allow := by
  intro report
  have reported : ∀ names, report names =
      ((ofConfig ⟨names, limit⟩).occurrences snapshot).map Occurrence.entry :=
    fun names => run_eq_map_occurrences _ snapshot
  refine ⟨?_, fun rule member diagnostic there => ⟨fun labeled => ?_, ?_⟩, fun others same => ?_⟩
  · rw [reported, reported, occurrences_allow_append, List.filter_map]
    refine congrArg _ (List.filter_congr fun occurrence member => congrArg _ ?_)
    have own := (mem_occurrences_allow.mp member).1.mem
    rw [Bool.eq_iff_iff, List.any_eq_true, entry_eq_lint]
    constructor
    · intro named
      exact ⟨_, own, Bool.and_eq_true_iff.mpr ⟨named, LintRule.labels_lint _ _ _⟩⟩
    · rintro ⟨rule, other, both⟩
      obtain ⟨named, labeled⟩ := Bool.and_eq_true_iff.mp both
      obtain rfl := (LintRule.labels_lint_iff own other).mp labeled
      exact named
  · rw [reported] at there
    obtain ⟨occurrence, listed, rfl⟩ := List.mem_map.mp there
    have found := (mem_occurrences _ snapshot).mp listed
    rw [entry_eq_lint] at labeled
    obtain rfl := (LintRule.labels_lint_iff found.mem member).mp labeled
    exact ⟨occurrence.finding, found.finding_mem, rfl⟩
  · rintro ⟨finding, _, rfl⟩
    exact rule.labels_lint _ _
  · rw [reported, reported, occurrences_allow_congr same]

/-- Two rules report at one position, and one of them is allowed under its name. -/
theorem run_allow_append_tie :
    let snapshot := Snapshot.capture ⟨"/p/a.ts"⟩ "debugger \n"
    let report := fun names => (ofConfig ⟨names, 8⟩).run snapshot
    let blank : Diagnostic :=
      ⟨.lint, "trailing-whitespace: trailing whitespace", some ⟨0, 8⟩⟩
    let long : Diagnostic :=
      ⟨.lint, "max-line-length: exceeds maximum line length of 8 (9 characters)", some ⟨0, 8⟩⟩
    report ["L102"] = [blank, long] ∧ report ["L102", "trailing-whitespace"] = [long] ∧
      (∃ finding ∈ LintRule.maxLineLength.check ⟨["L102"], 8⟩ snapshot,
        long = Diagnostic.lint "max-line-length" finding.message (some finding.position)) ∧
      (∀ name ∈ LintRule.builtinNames, name ∈ ["L102", "L999", "L102"] ↔ name ∈ ["L102"]) ∧
      report ["L102", "L999", "L102"] = report ["L102"] := by
  -- Both findings are at one position, so sorting leaves them as they are.
  have found : (ofConfig ⟨["L102"], 8⟩).findings (Snapshot.capture ⟨"/p/a.ts"⟩ "debugger \n") =
      [("trailing-whitespace", ⟨"trailing whitespace", ⟨0, 8⟩⟩),
        ("max-line-length", ⟨"exceeds maximum line length of 8 (9 characters)", ⟨0, 8⟩⟩)] := by
    decide +kernel
  have labels : LintRule.maxLineLength.labels ⟨.lint,
      "max-line-length: exceeds maximum line length of 8 (9 characters)", some ⟨0, 8⟩⟩ = true := by
    decide +kernel
  intro snapshot report blank long
  have both : report ["L102"] = [blank, long] := by
    show (ofConfig ⟨["L102"], 8⟩).run snapshot = _
    rw [run, found, List.mergeSort_of_pairwise (by decide)]
    rfl
  have same : ∀ name ∈ LintRule.builtinNames,
      name ∈ ["L102", "L999", "L102"] ↔ name ∈ ["L102"] := by decide
  have builtin : LintRule.maxLineLength ∈ LintRule.builtin := by simp [LintRule.builtin]
  have member : long ∈ report ["L102"] := by
    rw [both]
    exact List.mem_cons_of_mem _ List.mem_cons_self
  obtain ⟨filtered, labeled, alike⟩ :=
    run_allow_append ["L102"] ["trailing-whitespace"] 8 snapshot
  refine ⟨both, ?_, (labeled _ builtin _ member).mp labels, same, alike _ same⟩
  refine (filtered.trans (congrArg _ both)).trans ?_
  decide +kernel

end Linter

end ScriptAnalysis
