import ScriptAnalysis.Proofs.Service.Notification
import ScriptAnalysis.Proofs.Service.Upkeep

/-!
# Separation of projects

Projects share a store and a registry and nothing else. A request is answered by the project
of its root and changes no other one, and in a notification every project absorbs the changes
by itself. So two services with the same project at a root keep it the same, however many
requests for other roots only one of them serves (`Serving.AgreesAt.run`).
-/

namespace ScriptAnalysis

variable {σ : Type} {store : SourceStore} {engine : Engine σ} {root : SourcePath}

namespace Registry

variable {α : Type} {left right : Registry σ}

/-- A request leaves the options of the registry as they were. -/
theorem options_onProject (store : SourceStore) (engine : Engine σ) (root : SourcePath)
    (operation : Project σ → Traced (Except EngineError α × Project σ)) (registry : Registry σ) :
    (registry.onProject (Backend.overStore store engine) root operation).value.2.options =
      registry.options := by
  rw [onProject_value, getOrCreate_value]
  simp only [insert]
  split <;> rfl

/-- A request replaces the project of the root that it asks for, and no other project. -/
theorem find?_onProject (store : SourceStore) (engine : Engine σ) (asked root : SourcePath)
    (operation : Project σ → Traced (Except EngineError α × Project σ)) (registry : Registry σ) :
    (registry.onProject (Backend.overStore store engine) asked operation).value.2.find? root =
      if asked.normalize = root.normalize then
        some (operation (registry.obtained store engine asked)).value.2
      else registry.find? root := by
  have places : asked.normalize.components = root.normalize.components ↔
      asked.normalize = root.normalize :=
    ⟨asked.isPlain_normalize.eq_of_components root.isPlain_normalize, congrArg _⟩
  rw [onProject_value, getOrCreate_value]
  simp only [find?, insert, PathMap.find?_insert, places]
  by_cases same : asked.normalize = root.normalize
  · rw [if_pos same, if_pos same]
  · rw [if_neg same, if_neg same]
    split
    · rfl
    · simp only [PathMap.find?_insert, places, if_neg same]

/-- Registries that are alike in all that concerns one root. -/
structure AgreesAt (root : SourcePath) (left right : Registry σ) : Prop where
  leftFormed : left.WellFormed
  rightFormed : right.WellFormed
  options : left.options = right.options
  project : left.find? root = right.find? root

namespace AgreesAt

variable {asked : SourcePath}
  {operation : Project σ → Traced (Except EngineError α × Project σ)}

/-- Both work with the same project when the root is asked for. -/
theorem obtained (agrees : AgreesAt root left right)
    (same : asked.normalize = root.normalize) (store : SourceStore) (engine : Engine σ) :
    left.obtained store engine asked = right.obtained store engine asked := by
  have project := agrees.project
  rw [find?, find?, ← same] at project
  rw [Registry.obtained, Registry.obtained, project, agrees.options]

/-- A request for the root is answered alike and leaves the registries alike. -/
theorem onProject (agrees : AgreesAt root left right) (store : SourceStore) (engine : Engine σ)
    (same : asked.normalize = root.normalize)
    (operation : Project σ → Traced (Except EngineError α × Project σ)) :
    let leftOutcome := (left.onProject (Backend.overStore store engine) asked operation).value
    let rightOutcome := (right.onProject (Backend.overStore store engine) asked operation).value
    leftOutcome.1 = rightOutcome.1 ∧ AgreesAt root leftOutcome.2 rightOutcome.2 := by
  have project := agrees.obtained same store engine
  refine ⟨?_, agrees.leftFormed.onProject, agrees.rightFormed.onProject, ?_, ?_⟩
  · rw [onProject_value, onProject_value, project]
  · rw [options_onProject, options_onProject, agrees.options]
  · rw [find?_onProject, find?_onProject, if_pos same, if_pos same, project]

/-- A request for another root may be served by one side alone. -/
theorem onProject_other (agrees : AgreesAt root left right)
    (other : asked.normalize ≠ root.normalize) :
    AgreesAt root left
      (right.onProject (Backend.overStore store engine) asked operation).value.2 where
  leftFormed := agrees.leftFormed
  rightFormed := agrees.rightFormed.onProject
  options := by rw [options_onProject, agrees.options]
  project := by rw [find?_onProject, if_neg other, agrees.project]

/-- A notification leaves the registries alike. -/
theorem notify (agrees : AgreesAt root left right) (notification : FileChangeNotification) :
    AgreesAt root (left.notify (Backend.overStore store engine) notification).value.2
      (right.notify (Backend.overStore store engine) notification).value.2 := by
  rw [notify_value agrees.leftFormed, notify_value agrees.rightFormed]
  refine ⟨agrees.leftFormed.mapProjects _, agrees.rightFormed.mapProjects _, agrees.options, ?_⟩
  rw [agrees.leftFormed.find?_mapProjects, agrees.rightFormed.find?_mapProjects, agrees.project]

end AgreesAt

end Registry

/-- What a request is answered with. -/
inductive Reply where
  | diagnostics (answer : Except ServiceError Report)
  | completions (answer : Except ServiceError CompletionReport)

namespace ServingAction

/-- The normal root whose project the action asks for something, if it is a request. -/
def root? : ServingAction → Option SourcePath
  | .serve (.diagnostics root _ _) => some root.normalize
  | .serve (.completions root _ _ _) => some root.normalize
  | _ => none

/-- The action stays when all requests for other roots than the given one are deleted. -/
def isKeptFor (root : SourcePath) (action : ServingAction) : Bool :=
  action.root?.all fun asked => asked = root.normalize

end ServingAction

namespace Serving

variable {matters : SourceStore → SourceStore → SourcePath → Bool} {left right : Serving σ}

/-- The normal root that a request asks for, and its answer. -/
def reply? (engine : Engine σ) (serving : Serving σ) : ServingAction → Option (SourcePath × Reply)
  | .serve (.diagnostics root file code) =>
      some (root.normalize, .diagnostics
        (serving.registry.diagnostics (serving.backend engine) root file code).value.1)
  | .serve (.completions root file code offset) =>
      some (root.normalize, .completions
        (serving.registry.completions (serving.backend engine) root file code offset).value.1)
  | _ => none

/-- The replies to the requests of a run, in their order. -/
def replies (engine : Engine σ) (matters : SourceStore → SourceStore → SourcePath → Bool) :
    List ServingAction → Serving σ → List (SourcePath × Reply)
  | [], _ => []
  | action :: rest, serving =>
      (serving.reply? engine action).toList ++
        replies engine matters rest (serving.step engine matters action)

/-- The reply to an action is for a root exactly if the action is kept for it. -/
theorem filter_reply? (engine : Engine σ) (serving : Serving σ) (action : ServingAction)
    (root : SourcePath) :
    (serving.reply? engine action).toList.filter (fun reply => reply.1 = root.normalize) =
      if action.isKeptFor root then (serving.reply? engine action).toList else [] := by
  cases action with
  | replace store => rfl
  | serve command =>
      cases command with
      | notify notification => rfl
      | diagnostics asked file code =>
          simp [reply?, ServingAction.isKeptFor, ServingAction.root?, List.filter_singleton]
      | completions asked file code offset =>
          simp [reply?, ServingAction.isKeptFor, ServingAction.root?, List.filter_singleton]

/-- Services over one store that are alike in all that concerns one root. -/
structure AgreesAt (root : SourcePath) (left right : Serving σ) : Prop where
  store : left.store = right.store
  registry : left.registry.AgreesAt root right.registry

namespace AgreesAt

/-- What is kept is replied to alike and leaves the services alike. -/
theorem step (agrees : AgreesAt root left right) (engine : Engine σ)
    (matters : SourceStore → SourceStore → SourcePath → Bool) {action : ServingAction}
    (kept : action.isKeptFor root = true) :
    left.reply? engine action = right.reply? engine action ∧
      AgreesAt root (left.step engine matters action) (right.step engine matters action) := by
  obtain ⟨stores, registries⟩ := agrees
  cases action with
  | replace store => exact ⟨rfl, rfl, registries⟩
  | serve command =>
      cases command with
      | notify notification =>
          refine ⟨rfl, stores, ?_⟩
          simp only [Serving.step, serve, backend, stores]
          exact registries.notify notification
      | diagnostics asked file code =>
          have same : asked.normalize = root.normalize := of_decide_eq_true kept
          obtain ⟨answers, after⟩ := registries.onProject right.store engine same
            (Project.diagnostics right.store engine file.normalize code)
          simp only [← Registry.diagnostics_value] at answers after
          refine ⟨?_, stores, ?_⟩
          · simp only [reply?, backend, stores, answers]
          · simpa only [Serving.step, serve, backend, stores] using after
      | completions asked file code offset =>
          have same : asked.normalize = root.normalize := of_decide_eq_true kept
          obtain ⟨answers, after⟩ := registries.onProject right.store engine same
            (Project.completions right.store engine file.normalize code offset)
          simp only [← Registry.completions_value] at answers after
          refine ⟨?_, stores, ?_⟩
          · simp only [reply?, backend, stores, answers]
          · simpa only [Serving.step, serve, backend, stores] using after

/-- A request for another root may be served by one side alone. -/
theorem step_other (agrees : AgreesAt root left right) (engine : Engine σ)
    (matters : SourceStore → SourceStore → SourcePath → Bool) {action : ServingAction}
    (other : action.isKeptFor root = false) :
    AgreesAt root left (right.step engine matters action) := by
  obtain ⟨stores, registries⟩ := agrees
  cases action with
  | replace store => cases other
  | serve command =>
      cases command with
      | notify notification => cases other
      | diagnostics asked file code =>
          refine ⟨stores, ?_⟩
          simp only [Serving.step, serve, backend, Registry.diagnostics_value]
          exact registries.onProject_other (of_decide_eq_false other)
      | completions asked file code offset =>
          refine ⟨stores, ?_⟩
          simp only [Serving.step, serve, backend, Registry.completions_value]
          exact registries.onProject_other (of_decide_eq_false other)

/-- A run and the same run without the requests for other roots: the replies for the root are
the same, and the services stay alike. -/
theorem run (agrees : AgreesAt root left right) (actions : List ServingAction) :
    let kept := actions.filter fun action => action.isKeptFor root
    left.replies engine matters kept =
        (right.replies engine matters actions).filter (fun reply => reply.1 = root.normalize) ∧
      AgreesAt root (left.run engine matters kept) (right.run engine matters actions) := by
  induction actions generalizing left right with
  | nil => exact ⟨rfl, agrees⟩
  | cons action rest inductionHypothesis =>
      cases kept : action.isKeptFor root with
      | true =>
          obtain ⟨answered, after⟩ := agrees.step engine matters kept
          obtain ⟨others, final⟩ := inductionHypothesis after
          rw [List.filter_cons_of_pos kept]
          refine ⟨?_, final⟩
          rw [replies, replies, List.filter_append, filter_reply?, if_pos kept, answered, others]
      | false =>
          obtain ⟨others, final⟩ := inductionHypothesis
            (agrees.step_other engine matters kept)
          rw [List.filter_cons_of_neg (by simp [kept])]
          refine ⟨?_, final⟩
          rw [replies, List.filter_append, filter_reply?, kept, if_neg Bool.false_ne_true,
            List.nil_append, others]

end AgreesAt

/-- The answers to the requests for a root, and the project that the root has in the end, are
the same when all requests for other roots are deleted from a run. -/
theorem projects_do_not_interfere (engine : Engine σ)
    (matters : SourceStore → SourceStore → SourcePath → Bool) (options : HostOptions)
    (store : SourceStore) (actions : List ServingAction) (root : SourcePath) :
    let started : Serving σ := start options store
    let kept := actions.filter fun action => action.isKeptFor root
    started.replies engine matters kept =
        (started.replies engine matters actions).filter (fun reply => reply.1 = root.normalize) ∧
      (started.run engine matters kept).registry.find? root =
        (started.run engine matters actions).registry.find? root := by
  intro started kept
  have agrees : AgreesAt root started started :=
    ⟨rfl, Registry.wellFormed_empty options, Registry.wellFormed_empty options, rfl, rfl⟩
  obtain ⟨replies, after⟩ := agrees.run actions
  exact ⟨replies, after.registry.project⟩

end Serving

end ScriptAnalysis
