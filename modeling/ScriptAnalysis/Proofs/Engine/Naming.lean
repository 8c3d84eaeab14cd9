import ScriptAnalysis.Engine.Delimiter
import ScriptAnalysis.Engine.Scripted
import ScriptAnalysis.Proofs.Cache.Entries

/-!
# Engines that name files plainly

What an engine asks its host about becomes tracked under the spelling it used. An engine
`NamesPlainly` if, asked about a plain path, it asks about plain paths only and locates its
findings in them; then it keeps every property of snapshots that the store feeds. Both
engines of the library do so.
-/

namespace ScriptAnalysis

variable {σ α β : Type}

/-- The question is about no text, or about the text at a plain path. -/
def HostQuestion.IsPlain : HostQuestion → Prop
  | .scriptVersion path => path.IsPlain
  | .scriptSnapshot path => path.IsPlain
  | _ => True

/-- Every question is plain, and the result has a property. -/
def Inquiry.AsksPlainly (property : α → Prop) : Inquiry α → Prop
  | .done result => property result
  | .note _ next => next.AsksPlainly property
  | .ask question next => question.IsPlain ∧ ∀ answer, (next answer).AsksPlainly property

/-- A finding is located in a plain path, if it is located at all. -/
def EngineDiagnostic.IsPlain (finding : EngineDiagnostic) : Prop :=
  ∀ location ∈ finding.location, location.file.IsPlain

/-- All findings of an answer are located in plain paths. -/
def LocatesPlainly (answer : Except EngineError (List EngineDiagnostic) × σ) : Prop :=
  ∀ findings, answer.1 = .ok findings → ∀ finding ∈ findings, finding.IsPlain

/-- Asked about a plain path, the engine names plain paths only. -/
structure Engine.NamesPlainly (engine : Engine σ) : Prop where
  declaration : ∀ file state, file.IsPlain →
    (engine.declaration file state).AsksPlainly LocatesPlainly
  semantic : ∀ file state, file.IsPlain →
    (engine.semantic file state).AsksPlainly LocatesPlainly
  syntactic : ∀ file state, file.IsPlain →
    (engine.syntactic file state).AsksPlainly LocatesPlainly
  completions : ∀ file offset state, file.IsPlain →
    (engine.completions file offset state).AsksPlainly fun _ => True

variable {fits : SourcePath → Snapshot → Prop} {store : SourceStore} {host : Host}

/-- A plain question keeps every property of snapshots that the store feeds. -/
theorem Host.every_answer (every : host.cache.snapshots.Every fits)
    (feeds : SnapshotCache.Feeds fits store) {question : HostQuestion} (plain : question.IsPlain) :
    (host.answer store question).value.2.cache.snapshots.Every fits := by
  cases question with
  | scriptVersion path => exact every.snapshot feeds plain
  | scriptSnapshot path => exact every.snapshot feeds plain
  | _ => exact every

/-- So does a whole inquiry, and its result is as promised. -/
theorem Inquiry.every_run {property : α → Prop} (inquiry : Inquiry α)
    (asks : inquiry.AsksPlainly property) (every : host.cache.snapshots.Every fits)
    (feeds : SnapshotCache.Feeds fits store) :
    property (inquiry.run store host).value.1 ∧
      (inquiry.run store host).value.2.cache.snapshots.Every fits := by
  induction inquiry generalizing host with
  | done result => exact ⟨asks, every⟩
  | note event next inductionHypothesis => exact inductionHypothesis asks every
  | ask question next inductionHypothesis =>
      obtain ⟨plain, others⟩ := asks
      exact inductionHypothesis _ (others _) (host.every_answer every feeds plain)

namespace DelimiterEngine

theorem namesPlainly : engine.NamesPlainly where
  declaration file state plain findings none finding member := by
    cases none
    cases member
  semantic file state plain findings none finding member := by
    cases none
    cases member
  syntactic file state plain := by
    refine ⟨plain, fun answer => ?_⟩
    cases answer with
    | none =>
        intro findings none finding member
        cases none
        cases member
    | some snapshot =>
        intro findings found finding member location located
        cases found
        obtain ⟨imbalance, _, rfl⟩ := List.mem_map.mp member
        cases located
        exact plain
  completions file offset state plain := by
    refine ⟨plain, fun answer => ?_⟩
    cases answer <;> trivial

end DelimiterEngine

namespace ScriptedEngine

theorem marker_isPlain {file : SourcePath} (plain : file.IsPlain) {word message source : String}
    {code : UInt32} {finding : EngineDiagnostic}
    (member : finding ∈ marker file word code message source) : finding.IsPlain := by
  unfold marker at member
  split at member
  · cases List.mem_singleton.mp member
    intro location located
    cases located
    exact plain
  · cases member

theorem chained_isPlain {source : String} {finding : EngineDiagnostic}
    (member : finding ∈ chained source) : finding.IsPlain := by
  unfold chained at member
  split at member
  · cases List.mem_singleton.mp member
    intro location located
    cases located
  · cases member

theorem onSource_asksPlainly {file : SourcePath} (plain : file.IsPlain)
    {look : String → Except EngineError (List EngineDiagnostic)}
    (plainly : ∀ source findings, look source = .ok findings →
      ∀ finding ∈ findings, finding.IsPlain) :
    (onSource file look).AsksPlainly LocatesPlainly := by
  refine ⟨plain, fun answer => ?_⟩
  cases answer with
  | none =>
      intro findings failed
      cases failed
  | some snapshot => exact plainly snapshot.text

theorem namesPlainly : engine.NamesPlainly where
  declaration file state plain := by
    show (ScriptedEngine.declaration file state).AsksPlainly LocatesPlainly
    rw [ScriptedEngine.declaration]
    refine onSource_asksPlainly plain fun source findings found finding member => ?_
    cases found
    exact marker_isPlain plain member
  semantic file state plain := by
    show (ScriptedEngine.semantic file state).AsksPlainly LocatesPlainly
    rw [ScriptedEngine.semantic]
    refine onSource_asksPlainly plain fun source findings found finding member => ?_
    split at found
    · cases found
    · cases found
      rcases List.mem_append.mp member with marked | linked
      · exact marker_isPlain plain marked
      · exact chained_isPlain linked
  syntactic file state plain := by
    show (ScriptedEngine.syntactic file state).AsksPlainly LocatesPlainly
    rw [ScriptedEngine.syntactic]
    refine onSource_asksPlainly plain fun source findings found finding member => ?_
    cases found
    exact marker_isPlain plain member
  completions file offset state plain := trivial

end ScriptedEngine

end ScriptAnalysis
