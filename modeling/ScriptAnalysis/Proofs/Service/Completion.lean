import Mathlib.Data.List.Pairwise
import ScriptAnalysis.Proofs.Service.Posed
import ScriptAnalysis.Proofs.Text.Order
import ScriptAnalysis.Proofs.Token.Bytes

/-!
# What a completion request offers

The delimiter engine offers the names of a text (`CompletionReport.Offers`). Tokens do not overlap,
so the one at the cursor is the only one left out, and its name is offered exactly if it stands
elsewhere too. A request is answered from the effective text of its file
(`completions_offer_effective`), if the version of that text tells it apart from the text that is
cached. Two texts with one version show that this cannot be left out
(`completions_stale_on_collision`).
-/

namespace ScriptAnalysis

/-- Of two tokens of a script one stands behind the other. -/
theorem tokenize_apart {source : String} {left right : Token} (leftMember : left ∈ tokenize source)
    (rightMember : right ∈ tokenize source) (different : left ≠ right) :
    left.stop ≤ right.start ∨ right.stop ≤ left.start := by
  have lexed := ByteGrammar.lexed_scan 0 source.toList
  rw [← Piece.tokenize_eq_scan] at lexed
  have either : (tokenize source).Pairwise fun first second =>
      first.stop ≤ second.start ∨ second.stop ≤ first.start := lexed.bounds.1.imp Or.inl
  have : Std.Symm fun first second : Token =>
      first.stop ≤ second.start ∨ second.stop ≤ first.start := ⟨fun _ _ => Or.symm⟩
  exact either.forall leftMember rightMember different

/-- The report offers the names of a text apart from the one that is being typed at the offset. -/
structure CompletionReport.Offers (report : CompletionReport) (text : String) (offset : Nat) :
    Prop where
  /-- The names ascend strictly by their bytes, so none is offered twice. -/
  ascending : report.entries.Pairwise fun left right =>
    Text.bytes left.name.toList < Text.bytes right.name.toList
  /-- A name is offered exactly if it is one of the text and not at the cursor. -/
  exact : ∀ name, name ∈ report.entries.map CompletionEntry.name ↔
    ∃ token ∈ tokenize text, token.kind = .identifier ∧
      ¬ (token.start < offset ∧ offset ≤ token.stop) ∧ token.text = name
  /-- The name at the cursor is offered exactly if it stands at another place too. -/
  elsewhere : ∀ token ∈ tokenize text, token.kind = .identifier →
    token.start < offset ∧ offset ≤ token.stop →
      (token.text ∈ report.entries.map CompletionEntry.name ↔
        ∃ other ∈ tokenize text, other.kind = .identifier ∧ other.start ≠ token.start ∧
          other.text = token.text)

namespace DelimiterEngine

variable {source name : String} {offset : Nat}

theorem mem_names : name ∈ names source offset ↔
    ∃ token ∈ tokenize source, token.kind = .identifier ∧
      ¬ (token.start < offset ∧ offset ≤ token.stop) ∧ token.text = name := by
  simp only [names, Text.mem_sortedDistinct, List.mem_map, List.mem_filter, isUnderCursor,
    Bool.and_eq_true, beq_iff_eq, Bool.not_eq_true', Bool.and_eq_false_iff, decide_eq_false_iff_not,
    not_and_or, and_assoc]

/-- Only one token can be at the cursor, so a name from another place is always offered. -/
theorem mem_names_of_under_cursor {token : Token} (member : token ∈ tokenize source)
    (under : token.start < offset ∧ offset ≤ token.stop) :
    token.text ∈ names source offset ↔
      ∃ other ∈ tokenize source, other.kind = .identifier ∧ other.start ≠ token.start ∧
        other.text = token.text := by
  have nonempty := ByteGrammar.start_lt_stop_of_mem_tokenize member
  rw [mem_names]
  refine exists_congr fun other => and_congr_right fun there => and_congr_right fun _ =>
    and_congr_left fun _ => ?_
  have otherNonempty := ByteGrammar.start_lt_stop_of_mem_tokenize there
  constructor
  · intro away same
    have different : other ≠ token := fun equal => away (equal ▸ under)
    rcases tokenize_apart there member different with before | behind <;> omega
  · intro elsewhere alsoUnder
    have different : other ≠ token := fun equal => elsewhere (equal ▸ rfl)
    rcases tokenize_apart there member different with before | behind <;> omega

/-- Candidates made from sorted names are sorted already. -/
theorem entries_ofEntries (source : String) (offset : Nat) :
    (CompletionReport.ofEntries ((names source offset).map candidate)).entries =
      (names source offset).map candidate := by
  refine List.mergeSort_of_pairwise (List.pairwise_map.mpr ?_)
  refine (Text.pairwise_sortedDistinct _).imp fun {left right} before => ?_
  have notAfter : left ≤ right := String.not_lt.mp (String.lt_asymm before)
  simp [CompletionReport.notAfter, candidate, notAfter]

/-- The engine offers the names of a text. -/
theorem offers_names (source : String) (offset : Nat) :
    (CompletionReport.ofEntries ((names source offset).map candidate)).Offers source offset := by
  have listed : ((names source offset).map candidate).map CompletionEntry.name =
      names source offset := by
    rw [List.map_map]
    exact List.map_id _
  refine ⟨?_, fun name => ?_, fun token member _ under => ?_⟩
  · rw [entries_ofEntries, List.pairwise_map]
    exact (Text.pairwise_sortedDistinct _).imp fun before =>
      Text.bytes_lt_bytes (String.lt_iff_toList_lt.mp before)
  · rw [entries_ofEntries, listed]
    exact mem_names
  · rw [entries_ofEntries, listed]
    exact mem_names_of_under_cursor member under

end DelimiterEngine

/-- A settled text is the one that was to be settled, unless another one has its version. -/
theorem Content.text_settle {old : Option Content} {text : String}
    (identified : ∀ content ∈ old, content.version = ContentHash.ofText text →
      content.text = text) : (settle old text).text = text := by
  cases old with
  | none => rfl
  | some content =>
      rw [settle]
      split
      · next same => exact identified content rfl same
      · rfl

/-- The candidates at an offset of a file that has the given text, if any. -/
def statelessCompletions (file : SourcePath) (offset : Nat) :
    Option String → Except EngineError CompletionReport
  | none => .ok ⟨[]⟩
  | some text =>
      if Text.byteLength text.toList < offset then .error (.offsetOutOfRange file offset)
      else .ok (.ofEntries ((DelimiterEngine.names text offset).map DelimiterEngine.candidate))

/-- The candidates after a text was pushed are those of the text that the file has then. -/
theorem Project.candidates_withContent (store : SourceStore) (file : SourcePath) (code : String)
    (offset : Nat) (project : Project Unit) :
    (project.withContent store file code).candidates file offset =
      statelessCompletions file offset (project.servedText store file code) := by
  rw [candidates, servedText_eq_cached]
  cases (project.withContent store file code).cached? file with
  | none => exact congrArg Except.ok (congrArg CompletionReport.mk List.mergeSort_nil)
  | some snapshot => rfl

/-- A sound cache serves the effective text, unless another text that is cached has its version. -/
theorem Project.servedText_eq_effective {store : SourceStore} {file : SourcePath} {code : String}
    {project : Project Unit} (sound : project.host.cache.snapshots.IsSound)
    (distinct : ∀ text ∈ store.effective file code, ∀ held ∈ project.cached? file,
      ContentHash.ofText held.text = ContentHash.ofText text → held.text = text) :
    project.servedText store file code = store.effective file code := by
  rw [servedText, Content.refreshed, Option.map_map]
  refine (Option.map_congr fun text effective => ?_).trans Option.map_id_apply
  refine Content.text_settle fun content member same => ?_
  obtain ⟨held, cached, rfl⟩ := Option.map_eq_some_iff.mp member
  obtain ⟨key, there, -⟩ := PathMap.mem_of_find? cached
  have version := (sound.whole (key, held) there).version
  exact distinct text effective held cached (version.symm.trans same)

namespace Registry

variable {σ α : Type} {registry : Registry σ} {backend : Backend σ} {root : SourcePath}

/-- Without a project the request has the failure for its answer. Only a root that cannot be
resolved has none. -/
theorem onProject_of_unobtained {error : InternalError}
    (failed : (registry.getOrCreate backend root).value.1 = .error error)
    (operation : Project σ → Traced (Except EngineError α × Project σ)) :
    (backend.resolve root.normalize).value = .error error ∧
      (registry.onProject backend root operation).value.1 = .error (.internal error) := by
  cases found : registry.projects.find? root.normalize with
  | some project =>
      rw [getOrCreate_of_found found] at failed
      cases failed
  | none =>
      cases outcome : (backend.resolve root.normalize).value with
      | ok resolved =>
          rw [getOrCreate_of_resolved found outcome] at failed
          cases failed
      | error reason =>
          rw [getOrCreate_of_failed found outcome] at failed
          cases failed
          refine ⟨rfl, ?_⟩
          rw [onProject, getOrCreate_of_failed found outcome]
          rfl

/-- A completion request is answered from the text that its file has after the push. -/
theorem completions_of_obtained {registry : Registry Unit} {store : SourceStore}
    {resolve : Resolver} {project : Project Unit}
    (obtained : (registry.getOrCreate ⟨store, resolve, DelimiterEngine.engine⟩ root).value.1 =
      .ok project) (file : SourcePath) (code : String) (offset : Nat) :
    (registry.completions ⟨store, resolve, DelimiterEngine.engine⟩ root file code
      offset).value.1 =
      if project.configurationErrors.isEmpty then
        (statelessCompletions file.normalize offset
          (project.servedText store file.normalize code)).mapError ServiceError.engine
      else .ok ⟨[]⟩ := by
  rw [completions_eq_onProject, onProject_of_obtained obtained, Project.completions_value]
  split
  · exact congrArg (Except.mapError _) (project.candidates_withContent store file.normalize code
      offset)
  · rfl

/-- After every run a completion request is answered from the effective text of its file. It offers
nothing while the configuration is broken or there is no text, it fails for an offset beyond the
text, and else it offers the names of the text; provided that the text which the project holds of
the file, if any, has the version of the effective text only if it is that text. Where there is no
project and the root cannot be resolved, the request fails with that reason. -/
theorem completions_offer_effective (options : HostOptions) (steps : List RegistryStep)
    (store : SourceStore) (resolve : Resolver) (root file : SourcePath) (code : String)
    (offset : Nat) :
    let backend : Backend Unit := ⟨store, resolve, DelimiterEngine.engine⟩
    let registry := (run DelimiterEngine.engine options steps).value
    let answer := (registry.completions backend root file code offset).value.1
    (∀ error, (registry.getOrCreate backend root).value.1 = .error error →
      (resolve root.normalize).value = .error error ∧ answer = .error (.internal error)) ∧
    ∀ project, (registry.getOrCreate backend root).value.1 = .ok project →
      (∀ text ∈ store.effective file.normalize code, ∀ held ∈ project.cached? file.normalize,
        ContentHash.ofText held.text = ContentHash.ofText text → held.text = text) →
      (project.configurationErrors ≠ [] ∨ store.effective file.normalize code = none →
        answer = .ok ⟨[]⟩) ∧
      ∀ text, project.configurationErrors = [] → store.effective file.normalize code = some text →
        (Text.byteLength text.toList < offset →
          answer = .error (.engine (.offsetOutOfRange file.normalize offset))) ∧
        (offset ≤ Text.byteLength text.toList →
          ∃ report, answer = .ok report ∧ report.Offers text offset) := by
  intro backend registry answer
  refine ⟨fun error failed => ?_, fun project obtained distinct => ?_⟩
  · obtain ⟨unresolved, failure⟩ := onProject_of_unobtained failed
      (Project.completions store DelimiterEngine.engine file.normalize code offset)
    refine ⟨unresolved, (congrArg Prod.fst ?_).trans failure⟩
    exact completions_eq_onProject backend root file code offset registry
  · have answered : answer = _ := completions_of_obtained obtained file code offset
    rw [Project.servedText_eq_effective (isSound_of_obtained obtained) distinct] at answered
    refine ⟨fun reason => ?_, fun text usable effective => ?_⟩
    · by_cases usable : project.configurationErrors = []
      · rw [answered, usable, reason.resolve_left (not_not_intro usable)]
        rfl
      · rw [answered, if_neg (by simpa using usable)]
    · rw [answered, usable, effective]
      refine ⟨fun beyond => ?_, fun inside => ⟨_, ?_, DelimiterEngine.offers_names text offset⟩⟩
      · rw [statelessCompletions, if_pos beyond]
        rfl
      · rw [statelessCompletions, if_neg (Nat.not_lt.mpr inside)]
        rfl

/-- A pushed text takes the place of an earlier one. The name that is being typed is offered since
it stands at the end as well. -/
theorem completions_offer_effective_retyped_name :
    let store := Tree.empty.store
    let resolve := (Backend.overStore store DelimiterEngine.engine).resolve
    let steps : List RegistryStep := [⟨store, resolve, .completions ⟨"/p"⟩ ⟨"/p/a.ts"⟩ "let é" 0⟩]
    let registry := (run DelimiterEngine.engine .standard steps).value
    ∃ report, (registry.completions ⟨store, resolve, DelimiterEngine.engine⟩ ⟨"/p"⟩
        ⟨"/p/./a.ts"⟩ "let total = é;total" 6).value.1 = .ok report ∧
      "total" ∈ report.entries.map CompletionEntry.name := by
  intro store resolve steps registry
  have held : (registry.projects.find? (SourcePath.mk "/p").normalize).map (fun project =>
      (project.configurationErrors, (project.cached? ⟨"/p/a.ts"⟩).map Snapshot.text)) =
        some ([], some "let é") := by decide +kernel
  obtain ⟨project, found, known⟩ := Option.map_eq_some_iff.mp held
  obtain ⟨usable, cached⟩ := Prod.mk.inj known
  have obtained := obtained_of_found ⟨store, resolve, DelimiterEngine.engine⟩ found
  have effective : store.effective (SourcePath.mk "/p/./a.ts").normalize "let total = é;total" =
      some "let total = é;total" := by decide +kernel
  have answered := (completions_offer_effective .standard steps store resolve ⟨"/p"⟩
    ⟨"/p/./a.ts"⟩ "let total = é;total" 6).2 project obtained ?_
  · obtain ⟨report, answer, offers⟩ :=
      (answered.2 "let total = é;total" usable effective).2 (by decide)
    exact ⟨report, answer, (offers.exact "total").mpr (by decide +kernel)⟩
  · intro text isEffective snapshot there same
    have place : (SourcePath.mk "/p/./a.ts").normalize = ⟨"/p/a.ts"⟩ := by decide +kernel
    rw [place, Option.mem_def] at there
    rw [there, Option.map_some, Option.some_inj] at cached
    obtain rfl : "let total = é;total" = text :=
      Option.some_inj.mp (effective.symm.trans isEffective)
    rw [cached] at same
    exact absurd same (by decide +kernel)

/-- Two texts with one version: the second one is pushed, and the names of the first are offered. -/
theorem completions_stale_on_collision :
    let store := Tree.empty.store
    let resolve := (Backend.overStore store DelimiterEngine.engine).resolve
    let cached := "let total = sum;中xtpéH,d7@S3m"
    let pushed := "let total = sum;中ztpéH,d5@S3m"
    let steps : List RegistryStep := [⟨store, resolve, .completions ⟨"/p"⟩ ⟨"/p/a.ts"⟩ cached 0⟩]
    let registry := (run DelimiterEngine.engine .standard steps).value
    let answer := (registry.completions ⟨store, resolve, DelimiterEngine.engine⟩ ⟨"/p"⟩
      ⟨"/p/a.ts"⟩ pushed 0).value.1
    ContentHash.ofText cached = ContentHash.ofText pushed ∧
      (registry.find? ⟨"/p"⟩).map Project.configurationErrors = some [] ∧
      store.effective ⟨"/p/a.ts"⟩ pushed = some pushed ∧
      ¬ ∃ report, answer = .ok report ∧ report.Offers pushed 0 := by
  intro store resolve cached pushed steps registry answer
  refine ⟨by decide +kernel, by decide +kernel, by decide +kernel, ?_⟩
  rintro ⟨report, answered, offers⟩
  have held : (registry.projects.find? (SourcePath.mk "/p").normalize).map (fun project =>
      (project.configurationErrors, project.servedText store ⟨"/p/a.ts"⟩ pushed)) =
        some ([], some cached) := by decide +kernel
  obtain ⟨project, found, known⟩ := Option.map_eq_some_iff.mp held
  obtain ⟨usable, served⟩ := Prod.mk.inj known
  have obtained := obtained_of_found ⟨store, resolve, DelimiterEngine.engine⟩ found
  have place : (SourcePath.mk "/p/a.ts").normalize = ⟨"/p/a.ts"⟩ := by decide +kernel
  have stale : report =
      .ofEntries ((DelimiterEngine.names cached 0).map DelimiterEngine.candidate) := by
    have actual := completions_of_obtained obtained ⟨"/p/a.ts"⟩ pushed 0
    rw [place, usable, served] at actual
    exact Except.ok.inj (answered.symm.trans actual)
  have offered := (offers.exact "中ztpéH").mpr (by decide +kernel)
  rw [stale, (DelimiterEngine.offers_names cached 0).exact] at offered
  exact absurd offered (by decide +kernel)

end Registry

end ScriptAnalysis
