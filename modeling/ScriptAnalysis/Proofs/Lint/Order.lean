import Mathlib.Data.List.Sort
import ScriptAnalysis.Lint.Linter
import ScriptAnalysis.Proofs.Snapshot.Order

/-!
# The order of findings

A finding comes up at an `Occurrence`: the registration of its rule, and its own number among what
the rule finds. `Occurrence.Before` orders occurrences by position first and leaves no ties, so it
lists the occurrences of a snapshot in one way only (`eq_of_pairwise_before`). This is the way
in which a run reports them, each once (`run_lists_occurrences`).
-/

namespace ScriptAnalysis

namespace Linter

/-- A stable sort puts items in the order of their keys, and items with equal keys in the order in
which they were given. -/
theorem pairwise_mergeSort_of_pairwise {α : Type} {le : α → α → Bool} {earlier : α → α → Prop}
    (trans : ∀ a b c, le a b = true → le b c = true → le a c = true)
    (total : ∀ a b, (le a b || le b a) = true) {items : List α} (given : items.Pairwise earlier) :
    (items.mergeSort le).Pairwise fun left right =>
      le left right = true ∧ (le right left = true → earlier left right) := by
  induction items with
  | nil =>
      rw [List.mergeSort_nil]
      exact .nil
  | cons item rest inductionHypothesis =>
      obtain ⟨first, later⟩ := List.pairwise_cons.mp given
      -- The item goes behind those that have to stand before it and in front of all others.
      obtain ⟨front, back, whole, others, smaller⟩ := List.mergeSort_cons trans total item rest
      have kept := inductionHypothesis later
      have sorted := List.pairwise_mergeSort trans total (item :: rest)
      rw [others, List.pairwise_append] at kept
      rw [whole, List.pairwise_append, List.pairwise_cons] at sorted
      rw [whole, List.pairwise_append, List.pairwise_cons]
      obtain ⟨frontKept, backKept, crossKept⟩ := kept
      obtain ⟨-, ⟨itemBack, -⟩, frontItem⟩ := sorted
      refine ⟨frontKept, ⟨fun right member => ⟨itemBack right member, fun _ => ?_⟩, backKept⟩, ?_⟩
      · have there : right ∈ rest.mergeSort le := by
          rw [others]
          exact List.mem_append_right _ member
        exact first right (List.mem_mergeSort.mp there)
      · intro left member right behind
        rcases List.mem_cons.mp behind with rfl | behind
        · refine ⟨frontItem left member right List.mem_cons_self, fun tie => ?_⟩
          have strict := smaller left member
          rw [tie] at strict
          cases strict
        · exact crossKept left member right behind

/-- A finding with the number of its rule's registration, and its own number among what this rule
finds. -/
structure Occurrence where
  registration : Nat
  index : Nat
  rule : LintRule
  finding : LintFinding

namespace Occurrence

variable {left right : Occurrence}

/-- The finding beside the name of its rule. -/
def named (occurrence : Occurrence) : String × LintFinding :=
  (occurrence.rule.name, occurrence.finding)

/-- How the finding is reported. -/
def entry (occurrence : Occurrence) : Diagnostic :=
  ⟨.lint, occurrence.rule.name ++ ": " ++ occurrence.finding.message,
    some occurrence.finding.position⟩

/-- Whether the position does not stand after another one. -/
def notAfter (left right : Occurrence) : Bool :=
  left.finding.position.atMost right.finding.position

theorem notAfter_iff :
    left.notAfter right = true ↔ left.finding.position ≤ right.finding.position :=
  Position.atMost_iff

theorem notAfter_trans (left middle right : Occurrence) (first : left.notAfter middle = true)
    (second : middle.notAfter right = true) : left.notAfter right = true :=
  notAfter_iff.mpr ((notAfter_iff.mp first).trans (notAfter_iff.mp second))

theorem notAfter_total (left right : Occurrence) :
    (left.notAfter right || right.notAfter left) = true := by
  rw [Bool.or_eq_true, notAfter_iff, notAfter_iff]
  exact le_total left.finding.position.counts right.finding.position.counts

/-- In the order of registration, and of two findings of one registration as the rule lists
them. -/
def Earlier (left right : Occurrence) : Prop :=
  left.registration < right.registration ∨
    left.registration = right.registration ∧ left.index < right.index

/-- By position, and at one position in the order of registration. -/
def Before (left right : Occurrence) : Prop :=
  left.finding.position < right.finding.position ∨
    left.finding.position = right.finding.position ∧ left.Earlier right

/-- The finding comes up when the rules look at the snapshot, and its rule is not allowed, neither
by its name nor by its code. -/
structure IsFound (rules : List LintRule) (config : LintConfig) (snapshot : Snapshot)
    (occurrence : Occurrence) : Prop where
  registered : rules[occurrence.registration]? = some occurrence.rule
  name_notMem : occurrence.rule.name ∉ config.allow
  code_notMem : occurrence.rule.code ∉ config.allow
  listed : (occurrence.rule.check config snapshot)[occurrence.index]? = some occurrence.finding

theorem Before.asymm (before : left.Before right) : ¬ right.Before left := by
  rintro (back | ⟨back, backEarlier⟩)
  · rcases before with front | ⟨same, _⟩
    · exact lt_asymm front back
    · exact absurd back (by rw [same]; exact lt_irrefl _)
  · rcases before with front | ⟨_, earlier⟩
    · exact absurd front (by rw [back]; exact lt_irrefl _)
    · rw [Earlier] at earlier backEarlier
      omega

instance : Std.Irrefl Before := ⟨fun _ before => before.asymm before⟩

/-- There is one way only to list the members of a list in order. -/
theorem eq_of_pairwise_before {first second : List Occurrence}
    (firstOrdered : first.Pairwise Before) (secondOrdered : second.Pairwise Before)
    (same : ∀ occurrence, occurrence ∈ first ↔ occurrence ∈ second) : first = second := by
  refine List.Perm.eq_of_pairwise (fun _ _ _ _ before back => absurd back before.asymm)
    firstOrdered secondOrdered ?_
  exact (List.perm_ext_iff_of_nodup firstOrdered.nodup secondOrdered.nodup).mpr same

end Occurrence

variable (linter : Linter) (snapshot : Snapshot)

/-- What a registered rule finds, unless it is allowed. -/
def foundBy (registered : LintRule × Nat) : List Occurrence :=
  if linter.isAllowed registered.1 then []
  else (registered.1.check linter.config snapshot).zipIdx.map fun listed =>
    ⟨registered.2, listed.2, registered.1, listed.1⟩

/-- All findings in the order in which they are reported. -/
def occurrences : List Occurrence :=
  (linter.rules.zipIdx.flatMap (linter.foundBy snapshot)).mergeSort Occurrence.notAfter

/-- Numbering the findings loses none of them and adds none. -/
theorem findings_eq_map_foundBy :
    linter.findings snapshot = (linter.rules.zipIdx.flatMap (linter.foundBy snapshot)).map
      Occurrence.named := by
  have each : ∀ registered : LintRule × Nat,
      (linter.foundBy snapshot registered).map Occurrence.named =
      if linter.isAllowed registered.1 then []
      else (registered.1.check linter.config snapshot).map (registered.1.name, ·) := by
    intro registered
    rw [foundBy]
    split
    · rfl
    · rw [List.map_map, ← List.zipIdx_map_fst 0 (registered.1.check linter.config snapshot),
        List.map_map, List.zipIdx_map_fst]
      rfl
  rw [findings, enabled, List.map_flatMap, List.flatMap_congr fun registered _ => each registered]
  generalize 0 = start
  induction linter.rules generalizing start with
  | nil => rfl
  | cons rule rest inductionHypothesis =>
      rw [List.zipIdx_cons, List.flatMap_cons, ← inductionHypothesis (start + 1), List.filter_cons]
      cases linter.isAllowed rule <;> rfl

/-- A run reports the findings in their order. -/
theorem run_eq_map_occurrences :
    linter.run snapshot = (linter.occurrences snapshot).map Occurrence.entry := by
  have sorted : (linter.findings snapshot).mergeSort notAfter = (linter.occurrences snapshot).map
      Occurrence.named := by
    rw [findings_eq_map_foundBy]
    exact (List.map_mergeSort (r := Occurrence.notAfter) (f := Occurrence.named)
      fun _ _ _ _ => rfl).symm
  rw [run, sorted, List.map_map]
  rfl

theorem mem_foundBy {registered : LintRule × Nat} {occurrence : Occurrence} :
    occurrence ∈ linter.foundBy snapshot registered ↔
      (linter.isAllowed registered.1 = false ∧
        registered = (occurrence.rule, occurrence.registration)) ∧
      (occurrence.rule.check linter.config snapshot)[occurrence.index]? =
        some occurrence.finding := by
  obtain ⟨rule, registration⟩ := registered
  rw [foundBy]
  cases linter.isAllowed rule with
  | true => simp
  | false =>
      simp only [Bool.false_eq_true, if_false, List.mem_map, Prod.exists,
        List.mk_mem_zipIdx_iff_getElem?, true_and, Prod.mk.injEq]
      constructor
      · rintro ⟨finding, index, listed, rfl⟩
        exact ⟨⟨rfl, rfl⟩, listed⟩
      · rintro ⟨⟨rfl, rfl⟩, listed⟩
        exact ⟨_, _, listed, rfl⟩

theorem isAllowed_eq_false_iff {rule : LintRule} :
    linter.isAllowed rule = false ↔
      rule.name ∉ linter.config.allow ∧ rule.code ∉ linter.config.allow := by
  simp [isAllowed]

theorem mem_occurrences {occurrence : Occurrence} :
    occurrence ∈ linter.occurrences snapshot ↔
      occurrence.IsFound linter.rules linter.config snapshot := by
  rw [occurrences, List.mem_mergeSort, List.mem_flatMap]
  simp only [mem_foundBy, isAllowed_eq_false_iff]
  constructor
  · rintro ⟨_, registered, ⟨⟨name, code⟩, rfl⟩, listed⟩
    exact ⟨List.mk_mem_zipIdx_iff_getElem?.mp registered, name, code, listed⟩
  · rintro ⟨registered, name, code, listed⟩
    exact ⟨_, List.mk_mem_zipIdx_iff_getElem?.mpr registered, ⟨⟨name, code⟩, rfl⟩, listed⟩

/-- The numbers of a list ascend. -/
theorem pairwise_zipIdx {α : Type} (items : List α) :
    items.zipIdx.Pairwise fun left right => left.2 < right.2 := by
  rw [← List.pairwise_map (f := Prod.snd), List.zipIdx_map_snd]
  exact List.pairwise_lt_range'

/-- Rule after rule, findings come up in the order of their numbers. -/
theorem pairwise_found :
    (linter.rules.zipIdx.flatMap (linter.foundBy snapshot)).Pairwise Occurrence.Earlier := by
  refine List.pairwise_flatMap.mpr ⟨fun registered _ => ?_, ?_⟩
  · rw [foundBy]
    split
    · exact .nil
    · exact List.pairwise_map.mpr ((pairwise_zipIdx _).imp fun later => .inr ⟨rfl, later⟩)
  · refine (pairwise_zipIdx linter.rules).imp fun {first second} later left leftFound right
      rightFound => .inl ?_
    obtain ⟨⟨-, rfl⟩, -⟩ := (mem_foundBy linter snapshot).mp leftFound
    obtain ⟨⟨-, rfl⟩, -⟩ := (mem_foundBy linter snapshot).mp rightFound
    exact later

theorem pairwise_occurrences : (linter.occurrences snapshot).Pairwise Occurrence.Before := by
  have sorted : (linter.occurrences snapshot).Pairwise fun left right =>
      left.notAfter right = true ∧ (right.notAfter left = true → left.Earlier right) :=
    pairwise_mergeSort_of_pairwise Occurrence.notAfter_trans Occurrence.notAfter_total
      (linter.pairwise_found snapshot)
  refine sorted.imp fun {left right} kept => ?_
  obtain ⟨atMost, earlier⟩ := kept
  rw [Occurrence.notAfter_iff] at atMost earlier
  rcases atMost.lt_or_eq with before | same
  · exact .inl before
  · exact .inr ⟨same, earlier (le_of_eq same.symm)⟩

theorem rules_foldl_register (rules : List LintRule) (linter : Linter) :
    rules.foldl register linter = ⟨linter.rules ++ rules, linter.config⟩ := by
  induction rules generalizing linter with
  | nil => rw [List.foldl_nil, List.append_nil]
  | cons rule rest inductionHypothesis =>
      rw [List.foldl_cons, inductionHypothesis, register, List.append_assoc, List.singleton_append]

/-- Whatever rules are registered behind the built-in ones, once or more often, a run reports every
finding of every registration that is not allowed, and nothing else: by position, at one position
in the order of registration, and findings of one registration as their rule lists them. The order
is strict, so no finding is reported twice. -/
theorem run_lists_occurrences (config : LintConfig) (rules : List LintRule) (snapshot : Snapshot) :
    ∃ ordered : List Occurrence,
      (rules.foldl register (ofConfig config)).run snapshot = ordered.map Occurrence.entry ∧
      (∀ occurrence, occurrence ∈ ordered ↔
        occurrence.IsFound (LintRule.builtin ++ rules) config snapshot) ∧
      ordered.Pairwise Occurrence.Before := by
  rw [rules_foldl_register]
  exact ⟨_, run_eq_map_occurrences _ snapshot, fun _ => mem_occurrences _ snapshot,
    pairwise_occurrences _ snapshot⟩

/-- A rule that is registered once more has its findings behind those of the built-in rules. -/
example :
    ((ofConfig ⟨["L102"], 3⟩).register LintRule.trailingWhitespace).run
        (Snapshot.capture ⟨"/p/a.ts"⟩ "abc ") =
      [⟨.lint, "trailing-whitespace: trailing whitespace", some ⟨0, 3⟩⟩,
        ⟨.lint, "max-line-length: exceeds maximum line length of 3 (4 characters)",
          some ⟨0, 3⟩⟩,
        ⟨.lint, "trailing-whitespace: trailing whitespace", some ⟨0, 3⟩⟩] := by
  cbv

end Linter

end ScriptAnalysis
