import Mathlib.Data.List.Forall2
import ScriptAnalysis.Lint.Rule
import ScriptAnalysis.Proofs.Balance.Blame

/-!
# Scripts with like tokens

The checks of a script go by the kinds of its tokens and the places where they begin. Of the
wording they look at names only. So scripts with like tokens at corresponding places have like
findings at corresponding places (`Balance.alike_walk`, `LintRule.alike_debuggerTokens`), whatever
correspondence of places that is.
-/

namespace ScriptAnalysis

/-- Tokens of one kind, with one name if they are names, that begin at corresponding places. -/
structure Token.Alike (corresponds : Nat → Nat → Prop) (token other : Token) : Prop where
  kind : other.kind = token.kind
  name : token.kind = .identifier → other.lexeme = token.lexeme
  place : corresponds token.start other.start

variable {corresponds : Nat → Nat → Prop}

namespace Balance

/-- Findings about the same at corresponding places. -/
structure Finding.Alike (corresponds : Nat → Nat → Prop) (finding other : Finding) : Prop where
  imbalance : other.imbalance = finding.imbalance
  place : corresponds finding.offset other.offset

variable {offset offset' size size' : Nat} {opened : List Bracket}

theorem alike_unclosedAt (place : corresponds offset offset') (brackets : List Bracket) :
    List.Forall₂ (Finding.Alike corresponds) (unclosedAt offset brackets)
      (unclosedAt offset' brackets) := by
  induction brackets with
  | nil => exact .nil
  | cons bracket rest inductionHypothesis => exact .cons ⟨rfl, place⟩ inductionHypothesis

/-- Closing a bracket at one place leaves the same brackets open. -/
theorem alike_close (place : corresponds offset offset') (bracket : Bracket) :
    List.Forall₂ (Finding.Alike corresponds) (close bracket offset opened).1
        (close bracket offset' opened).1 ∧
      (close bracket offset' opened).2 = (close bracket offset opened).2 := by
  unfold close
  split
  · exact ⟨.cons ⟨rfl, place⟩ .nil, rfl⟩
  · exact ⟨alike_unclosedAt place _, rfl⟩

/-- Like tokens have the same effect. -/
theorem alike_step (opened : List Bracket) {token token' : Token}
    (alike : token.Alike corresponds token') (ends : corresponds size size') :
    List.Forall₂ (Finding.Alike corresponds) (step size token opened).1
        (step size' token' opened).1 ∧
      (step size' token' opened).2 = (step size token opened).2 := by
  obtain ⟨kind, start, stop, lexeme⟩ := token
  obtain ⟨kind', start', stop', lexeme'⟩ := token'
  have place : corresponds start start' := alike.place
  obtain rfl : kind' = kind := alike.kind
  cases kind' with
  | punctuation c =>
      cases opens : Bracket.ofOpener? c with
      | some bracket =>
          simp only [step, opens]
          exact ⟨.nil, trivial⟩
      | none =>
          cases closes : Bracket.ofCloser? c with
          | some bracket =>
              simp only [step, opens, closes]
              exact alike_close place bracket
          | none =>
              simp only [step, opens, closes]
              exact ⟨.nil, trivial⟩
  | string terminated =>
      cases terminated with
      | true => exact ⟨.nil, rfl⟩
      | false => exact ⟨.cons ⟨rfl, place⟩ .nil, rfl⟩
  | template terminated =>
      cases terminated with
      | true => exact ⟨.nil, rfl⟩
      | false => exact ⟨.cons ⟨rfl, place⟩ .nil, rfl⟩
  | openComment => exact ⟨.cons ⟨rfl, ends⟩ .nil, rfl⟩
  | _ => exact ⟨.nil, rfl⟩

/-- Like tokens have like findings. -/
theorem alike_walk {tokens tokens' : List Token}
    (alike : List.Forall₂ (Token.Alike corresponds) tokens tokens')
    (ends : corresponds size size') (opened : List Bracket) :
    List.Forall₂ (Finding.Alike corresponds) (walk size opened tokens)
      (walk size' opened tokens') := by
  induction alike generalizing opened with
  | nil => exact alike_unclosedAt ends opened
  | cons first rest inductionHypothesis =>
      obtain ⟨found, same⟩ := alike_step opened first ends
      rw [walk_cons, walk_cons, same]
      exact List.rel_append found (inductionHypothesis _)

end Balance

/-- Like tokens have like `debugger` keywords. -/
theorem LintRule.alike_debuggerTokens {tokens tokens' : List Token}
    (alike : List.Forall₂ (Token.Alike corresponds) tokens tokens')
    (previous : Option TokenKind) :
    List.Forall₂ (Token.Alike corresponds) (debuggerTokens previous tokens)
      (debuggerTokens previous tokens') := by
  induction alike generalizing previous with
  | nil => exact .nil
  | @cons token token' rest rest' first later inductionHypothesis =>
      have keyword : (token'.kind = .identifier ∧ token'.text = "debugger" ∧
            previous ≠ some (.punctuation '.')) ↔
          (token.kind = .identifier ∧ token.text = "debugger" ∧
            previous ≠ some (.punctuation '.')) := by
        rw [first.kind]
        refine and_congr_right fun named => ?_
        rw [Token.text, Token.text, first.name named]
      have others := inductionHypothesis (some token.kind)
      rw [debuggerTokens, debuggerTokens, first.kind]
      rw [first.kind] at keyword
      split
      · next here =>
          rw [if_pos (keyword.mpr here)]
          exact .cons first others
      · next other =>
          rw [if_neg (mt keyword.mp other)]
          exact others

/-- Lists of things that match have the same images under functions that agree on matches. -/
theorem map_eq_map_of_forall₂ {α β : Type} {relation : α → α → Prop} {left right : List α}
    (matching : List.Forall₂ relation left right) {first second : α → β}
    (same : ∀ a b, relation a b → second b = first a) : right.map second = left.map first := by
  induction matching with
  | nil => rfl
  | cons head tail inductionHypothesis =>
      rw [List.map_cons, List.map_cons, same _ _ head, inductionHypothesis]

end ScriptAnalysis
