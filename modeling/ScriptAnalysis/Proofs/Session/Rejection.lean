import ScriptAnalysis.Command.Serve

/-!
# Rejected lines

A line that is no request, names no command or carries unfit parameters is rejected before
the registry is touched (`Registry.answerLine_of_rejection`), and a blank line has no response
at all. So a session that is not given these lines responds to all others in the same way and
ends with the same projects (`Session.run_accepted`).
-/

namespace ScriptAnalysis

namespace Response

/-- The line was no request, or it named no command, or its parameters did not fit. -/
def isRejection (response : Response) : Bool :=
  match response.outcome with
  | .error (.malformed _) => true
  | .error (.command (.unknown _)) => true
  | .error (.command (.invalidParameters _ _)) => true
  | _ => false

end Response

/-- The text that is written on standard output, if the emission is one. -/
def Emission.printed? : Emission → Option String
  | .output text => some text
  | _ => none

namespace Registry

variable {σ : Type} (backend : Backend σ) (registry : Registry σ)

/-- A command that is executed is no longer rejected: if it fails, it fails in the service. -/
theorem execute_not_rejection (id : Json) (command : Command) :
    (Response.mk id (registry.execute backend command).value.1).isRejection = false := by
  cases command with
  | notify notification => rfl
  | diagnostics root file code =>
      rw [execute, Traced.value_bind]
      generalize (registry.diagnostics backend root file code).value = outcome
      obtain ⟨answer, next⟩ := outcome
      cases answer <;> rfl
  | completions root file code offset =>
      rw [execute, Traced.value_bind]
      generalize (registry.completions backend root file code offset).value = outcome
      obtain ⟨answer, next⟩ := outcome
      cases answer <;> rfl

/-- A line that is rejected leaves the registry as it was. -/
theorem answerLine_of_rejection (line : String)
    (rejected : (registry.answerLine backend line).value.1.isRejection = true) :
    (registry.answerLine backend line).value.2 = registry := by
  unfold answerLine at rejected ⊢
  cases read : Request.ofLine line with
  | error error => rfl
  | ok request =>
      simp only [read, respond] at rejected ⊢
      cases named : Command.ofRequest request with
      | error error => rfl
      | ok command =>
          simp only [named, Traced.value_bind, Traced.value_pure] at rejected
          rw [execute_not_rejection] at rejected
          cases rejected

end Registry

namespace Session

variable {σ : Type} {backend : Backend σ} {session : Session σ} {line : String}

/-- Give lines to a session: those that have a response, each beside it, and the session after
all of them. -/
def run (backend : Backend σ) : List String → Session σ → List (String × Response) × Session σ
  | [], session => ([], session)
  | line :: rest, session =>
      let (response, next) := (session.step backend line).value
      let (replies, final) := run backend rest next
      (response.toList.map (fun response => (line, response)) ++ replies, final)

/-- A blank line does nothing. -/
theorem run_of_blank (blank : Text.allBlank line = true) (rest : List String) :
    session.run backend (line :: rest) = session.run backend rest := by
  have step : (session.step backend line).value = (none, session) := by
    rw [step, if_pos blank, Traced.value_pure]
  simp [run, step]

/-- Any other line is answered from the registry, and the rest goes on from where it led. -/
theorem run_of_written (written : Text.allBlank line = false) (rest : List String) :
    session.run backend (line :: rest) =
      let answer := (session.registry.answerLine backend line).value
      let others := Session.run backend rest ⟨answer.2, session.answered + 1⟩
      ((line, answer.1) :: others.1, others.2) := by
  have step : (session.step backend line).value =
      (some (session.registry.answerLine backend line).value.1,
        ⟨(session.registry.answerLine backend line).value.2, session.answered + 1⟩) := by
    rw [step, if_neg (by simp [written])]
    rfl
  simp [run, step]

/-- Only the registry of a session shows in its replies and in the registry after them. -/
theorem run_congr {left right : Session σ} (same : left.registry = right.registry)
    (lines : List String) :
    (left.run backend lines).1 = (right.run backend lines).1 ∧
      (left.run backend lines).2.registry = (right.run backend lines).2.registry := by
  induction lines generalizing left right with
  | nil => exact ⟨rfl, same⟩
  | cons line rest inductionHypothesis =>
      cases blank : Text.allBlank line with
      | true =>
          rw [run_of_blank blank, run_of_blank blank]
          exact inductionHypothesis same
      | false =>
          rw [run_of_written blank, run_of_written blank, same]
          let answer := (right.registry.answerLine backend line).value
          have others := @inductionHypothesis ⟨answer.2, left.answered + 1⟩
            ⟨answer.2, right.answered + 1⟩ rfl
          exact ⟨congrArg (List.cons (line, answer.1)) others.1, others.2⟩

/-- Every line that is not blank has one reply, in the order of the lines. -/
theorem map_fst_run (backend : Backend σ) (lines : List String) (session : Session σ) :
    (session.run backend lines).1.map Prod.fst =
      lines.filter fun line => !Text.allBlank line := by
  induction lines generalizing session with
  | nil => rfl
  | cons line rest inductionHypothesis =>
      cases blank : Text.allBlank line with
      | true => simp [run_of_blank blank, inductionHypothesis, blank]
      | false => simp [run_of_written blank, inductionHypothesis, blank]

/-- What is printed are the replies, each on a line of its own. -/
theorem printed_answerAll (backend : Backend σ) (lines : List String) (session : Session σ) :
    (Serve.answerAll backend lines session).1.filterMap Emission.printed? =
      (session.run backend lines).1.map fun reply => reply.2.text ++ "\n" := by
  induction lines generalizing session with
  | nil => rfl
  | cons line rest inductionHypothesis =>
      have events : ∀ computation : Traced (Option Response × Session σ),
          computation.emissions.filterMap Emission.printed? = [] := by
        intro computation
        simp [Traced.emissions, Emission.printed?]
      have outputs : ∀ response : Option Response,
          (Serve.written response).filterMap Emission.printed? =
            response.toList.map fun response => response.text ++ "\n" := by
        intro response
        cases response <;> rfl
      simp [Serve.answerAll, Serve.answer, run, events, outputs, inductionHypothesis,
        Function.comp_def]

/-- Lines that are blank or rejected can be left out: the session replies to all others in the
same way, and its projects are the same in the end. -/
theorem run_accepted (backend : Backend σ) (lines : List String) (session : Session σ) :
    let accepted := (session.run backend lines).1.filter fun reply => !reply.2.isRejection
    (session.run backend (accepted.map Prod.fst)).1 = accepted ∧
      (session.run backend (accepted.map Prod.fst)).2.registry =
        (session.run backend lines).2.registry := by
  induction lines generalizing session with
  | nil => exact ⟨rfl, rfl⟩
  | cons line rest inductionHypothesis =>
      cases blank : Text.allBlank line with
      | true =>
          rw [run_of_blank blank]
          exact inductionHypothesis session
      | false =>
          rw [run_of_written blank]
          simp only
          generalize answered : (session.registry.answerLine backend line).value = answer
          obtain ⟨response, registry⟩ := answer
          obtain ⟨replies, registries⟩ := inductionHypothesis ⟨registry, session.answered + 1⟩
          cases rejected : response.isRejection with
          | true =>
              -- The line is left out, and the session without it starts from the same registry.
              have unchanged : registry = session.registry := by
                have kept := session.registry.answerLine_of_rejection backend line
                rw [answered] at kept
                exact kept rejected
              rw [List.filter_cons_of_neg (by simp [rejected])]
              have same : session.registry =
                  (⟨registry, session.answered + 1⟩ : Session σ).registry := unchanged.symm
              obtain ⟨repliesAlike, registriesAlike⟩ := run_congr same _
              exact ⟨repliesAlike.trans replies, registriesAlike.trans registries⟩
          | false =>
              rw [List.filter_cons_of_pos (by simp [rejected]), List.map_cons,
                run_of_written blank, answered]
              exact ⟨congrArg (List.cons (line, response)) replies, registries⟩

/-- Every line that is not blank has one reply, in the order of the lines, and these replies are
what is printed. If the blank lines and those whose reply is a rejection are deleted, the
replies to all other lines stay as they were, and so do the projects. -/
theorem rejected_lines_are_invisible (backend : Backend σ) (lines : List String)
    (session : Session σ) :
    let replies := (session.run backend lines).1
    let accepted := replies.filter fun reply => !reply.2.isRejection
    replies.map Prod.fst = (lines.filter fun line => !Text.allBlank line) ∧
      (Serve.answerAll backend lines session).1.filterMap Emission.printed? =
        replies.map (fun reply => reply.2.text ++ "\n") ∧
      (session.run backend (accepted.map Prod.fst)).1 = accepted ∧
      (session.run backend (accepted.map Prod.fst)).2.registry =
        (session.run backend lines).2.registry := by
  intro replies accepted
  obtain ⟨same, registries⟩ := run_accepted backend lines session
  exact ⟨map_fst_run backend lines session, printed_answerAll backend lines session, same,
    registries⟩

end Session

end ScriptAnalysis
