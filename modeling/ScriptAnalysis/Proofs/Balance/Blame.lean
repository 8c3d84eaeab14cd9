import ScriptAnalysis.Proofs.Balance

/-!
# What the findings of the balance check are about

Every finding is about a token of the script or about its end, and `Balance.Blames` has one case for
each. A step blames its own token or the end (`Balance.blames_step`), so the whole check blames
nothing else (`Balance.blames_walk`).
-/

namespace ScriptAnalysis

namespace Balance

/-- The token or the end of the script that a finding is about. -/
inductive Blames (size : Nat) (tokens : List Token) : Finding → Prop where
  | stray {token : Token} (member : token ∈ tokens) {bracket : Bracket}
      (closes : token.kind = .punctuation bracket.closer) : Blames size tokens ⟨.stray, token.start⟩
  | unclosed {token : Token} (member : token ∈ tokens) {bracket : Bracket}
      (closes : token.kind = .punctuation bracket.closer) (expected : Bracket) :
      Blames size tokens ⟨.unclosed expected, token.start⟩
  | unclosedAtEnd (expected : Bracket) : Blames size tokens ⟨.unclosed expected, size⟩
  | openString {token : Token} (member : token ∈ tokens) (opens : token.kind = .string false) :
      Blames size tokens ⟨.openString, token.start⟩
  | openTemplate {token : Token} (member : token ∈ tokens) (opens : token.kind = .template false) :
      Blames size tokens ⟨.openTemplate, token.start⟩
  | openComment : Blames size tokens ⟨.openComment, size⟩

variable {size : Nat} {tokens : List Token} {opened : List Bracket} {finding : Finding}

/-- More tokens take no blame away. -/
theorem Blames.cons (blames : Blames size tokens finding) (token : Token) :
    Blames size (token :: tokens) finding := by
  cases blames with
  | stray member closes => exact .stray (List.mem_cons_of_mem _ member) closes
  | unclosed member closes expected =>
      exact .unclosed (List.mem_cons_of_mem _ member) closes expected
  | unclosedAtEnd expected => exact .unclosedAtEnd expected
  | openString member opens => exact .openString (List.mem_cons_of_mem _ member) opens
  | openTemplate member opens => exact .openTemplate (List.mem_cons_of_mem _ member) opens
  | openComment => exact .openComment

/-- What closing a bracket reports is about the closer. -/
theorem blames_close {token : Token} (first : token ∈ tokens) {bracket : Bracket}
    (closes : token.kind = .punctuation bracket.closer)
    (member : finding ∈ (close bracket token.start opened).1) : Blames size tokens finding := by
  rw [close] at member
  split at member
  · rw [List.mem_singleton.mp member]
    exact .stray first closes
  · obtain ⟨expected, _, rfl⟩ := List.mem_map.mp member
    exact .unclosed first closes expected

/-- What a step reports is about its token or the end. -/
theorem blames_step {token : Token} (first : token ∈ tokens)
    (member : finding ∈ (step size token opened).1) : Blames size tokens finding := by
  obtain ⟨kind, start, stop, lexeme⟩ := token
  cases kind with
  | punctuation c =>
      cases opens : Bracket.ofOpener? c with
      | some bracket =>
          simp only [step, opens] at member
          cases member
      | none =>
          cases closes : Bracket.ofCloser? c with
          | some bracket =>
              simp only [step, opens, closes] at member
              have closer :=
                congrArg TokenKind.punctuation (Bracket.ofCloser?_eq_some_iff.mp closes)
              exact blames_close first closer member
          | none =>
              simp only [step, opens, closes] at member
              cases member
  | string terminated =>
      cases terminated with
      | true => cases member
      | false =>
          rw [List.mem_singleton.mp member]
          exact .openString first rfl
  | template terminated =>
      cases terminated with
      | true => cases member
      | false =>
          rw [List.mem_singleton.mp member]
          exact .openTemplate first rfl
  | openComment =>
      rw [List.mem_singleton.mp member]
      exact .openComment
  | _ => cases member

theorem walk_cons (size : Nat) (opened : List Bracket) (token : Token) (rest : List Token) :
    walk size opened (token :: rest) =
      (step size token opened).1 ++ walk size (step size token opened).2 rest := rfl

/-- Every finding of the check is about a token of the script or its end. -/
theorem blames_walk (member : finding ∈ walk size opened tokens) :
    Blames size tokens finding := by
  induction tokens generalizing opened with
  | nil =>
      obtain ⟨expected, _, rfl⟩ := List.mem_map.mp member
      exact .unclosedAtEnd expected
  | cons token rest inductionHypothesis =>
      rw [walk_cons, List.mem_append] at member
      rcases member with here | later
      · exact blames_step List.mem_cons_self here
      · exact (inductionHypothesis later).cons token

end Balance

end ScriptAnalysis
