import ScriptAnalysis.Proofs.Balance.Repair

/-!
# The order of findings

The balance check reports in the order of the script. A step reports one finding at its token, or
brackets that are open there, or an open comment at the end (`Balance.step_reports`), and the steps
after it report behind its token. So the findings of a whole script stand in order
(`Balance.pairwise_check`), and only missing brackets share their place with an earlier finding.
-/

namespace ScriptAnalysis

namespace Token

variable {place size : Nat} {tokens : List Token}

theorem Ascend.le (ascend : Ascend place tokens size) : place ≤ size := by
  induction ascend with
  | nil inside => exact inside
  | cons starts some _ inductionHypothesis =>
      exact starts.trans (some.le.trans inductionHypothesis)

/-- No token begins at the end of a script. -/
theorem Ascend.eq_nil (ascend : Ascend size tokens size) : tokens = [] := by
  cases ascend with
  | nil => rfl
  | cons starts some later =>
      have ends := later.le
      omega

/-- A comment without an end runs to the end of the script. -/
theorem stop_of_openComment {source : String} {token : Token} (member : token ∈ tokenize source)
    (opens : token.kind = .openComment) : token.stop = Text.byteLength source.toList := by
  rw [Piece.tokenize_eq_scan] at member
  obtain ⟨before, after, whole, starts, stops, leads⟩ := Piece.mem_scan member
  have ended : after = [] := by
    rw [opens] at leads
    generalize token.lexeme = lexeme at leads
    cases leads
    rfl
  rw [whole, ended, stops, starts, Text.byteLength_append, List.append_nil, Nat.zero_add]

end Token

namespace Balance

variable {size : Nat} {token : Token} {opened : List Bracket}

/-- The second finding may be reported after the first: it does not stand before it, and if both
stand at one place it is a missing bracket, behind another one or an open comment. -/
structure Finding.InOrder (left right : Finding) : Prop where
  offset_le : left.offset ≤ right.offset
  shared : left.offset = right.offset →
    (∃ bracket, right.imbalance = .unclosed bracket) ∧
      (left.imbalance = .openComment ∨ ∃ bracket, left.imbalance = .unclosed bracket)

theorem Finding.inOrder_of_lt {left right : Finding} (before : left.offset < right.offset) :
    left.InOrder right :=
  ⟨before.le, fun same => absurd same before.ne⟩

theorem pairwise_unclosedAt (offset : Nat) (brackets : List Bracket) :
    (unclosedAt offset brackets).Pairwise Finding.InOrder := by
  refine List.pairwise_map.mpr (List.pairwise_of_forall fun left right => ?_)
  exact ⟨le_rfl, fun _ => ⟨⟨right, rfl⟩, .inr ⟨left, rfl⟩⟩⟩

/-- What a step reports: one finding at its token, or brackets that are open there, or an open
comment at the end of the script. -/
theorem step_reports (size : Nat) (token : Token) (opened : List Bracket) :
    (∃ imbalance, (step size token opened).1 = [⟨imbalance, token.start⟩]) ∨
      (∃ brackets, (step size token opened).1 = unclosedAt token.start brackets) ∨
        token.kind = .openComment ∧ (step size token opened).1 = [⟨.openComment, size⟩] := by
  have silent : unclosedAt token.start [] = [] := rfl
  obtain ⟨kind, start, stop, lexeme⟩ := token
  cases kind with
  | punctuation c =>
      cases opens : Bracket.ofOpener? c with
      | some bracket => exact .inr (.inl ⟨[], by simp only [step, opens, silent]⟩)
      | none =>
          cases closes : Bracket.ofCloser? c with
          | some bracket =>
              simp only [step, opens, closes, close]
              split
              · exact .inl ⟨.stray, rfl⟩
              · exact .inr (.inl ⟨_, rfl⟩)
          | none => exact .inr (.inl ⟨[], by simp only [step, opens, closes, silent]⟩)
  | string terminated =>
      cases terminated with
      | true => exact .inr (.inl ⟨[], rfl⟩)
      | false => exact .inl ⟨.openString, rfl⟩
  | template terminated =>
      cases terminated with
      | true => exact .inr (.inl ⟨[], rfl⟩)
      | false => exact .inl ⟨.openTemplate, rfl⟩
  | openComment => exact .inr (.inr ⟨rfl, rfl⟩)
  | _ => exact .inr (.inl ⟨[], rfl⟩)

/-- The findings of a step are in order. -/
theorem pairwise_step (size : Nat) (token : Token) (opened : List Bracket) :
    (step size token opened).1.Pairwise Finding.InOrder := by
  rcases step_reports size token opened with ⟨imbalance, reported⟩ | ⟨brackets, reported⟩ |
    ⟨-, reported⟩
  · rw [reported]
    exact List.pairwise_singleton _ _
  · rw [reported]
    exact pairwise_unclosedAt _ _
  · rw [reported]
    exact List.pairwise_singleton _ _

/-- Unless its token is an open comment, a step reports at the token only. -/
theorem offset_of_mem_step {finding : Finding} (ended : token.kind ≠ .openComment)
    (member : finding ∈ (step size token opened).1) : finding.offset = token.start := by
  rcases step_reports size token opened with ⟨imbalance, reported⟩ | ⟨brackets, reported⟩ |
    ⟨opens, -⟩
  · rw [reported, List.mem_singleton] at member
    rw [member]
  · rw [reported] at member
    obtain ⟨bracket, -, rfl⟩ := List.mem_map.mp member
    rfl
  · exact absurd opens ended

/-- What the check reports on tokens that follow each other is in order and lies behind the place
where they begin. An open comment is the last token, and only missing brackets are reported after
it. -/
theorem pairwise_walk (opened : List Bracket) {place : Nat} {tokens : List Token}
    (ascend : Token.Ascend place tokens size)
    (comments : ∀ token ∈ tokens, token.kind = .openComment → token.stop = size) :
    (walk size opened tokens).Pairwise Finding.InOrder ∧
      ∀ finding ∈ walk size opened tokens, place ≤ finding.offset ∧ finding.offset ≤ size := by
  induction ascend generalizing opened with
  | nil inside =>
      refine ⟨pairwise_unclosedAt _ _, fun finding member => ?_⟩
      obtain ⟨bracket, -, rfl⟩ := List.mem_map.mp member
      exact ⟨inside, le_rfl⟩
  | @cons place size token rest starts some later inductionHypothesis =>
      obtain ⟨laterOrder, laterBounds⟩ := inductionHypothesis (step size token opened).2
        fun other member => comments other (List.mem_cons_of_mem _ member)
      have within := later.le
      rw [walk_cons]
      by_cases opens : token.kind = .openComment
      · have stops := comments token List.mem_cons_self opens
        rw [stops] at later
        have nothing := later.eq_nil
        have reported : (step size token opened).1 = [⟨.openComment, size⟩] := by
          rw [step, opens]
        rw [reported, nothing, List.singleton_append, walk]
        refine ⟨.cons (fun other member => ?_) (pairwise_unclosedAt _ _), fun other member => ?_⟩
        · obtain ⟨bracket, -, rfl⟩ := List.mem_map.mp member
          exact ⟨le_rfl, fun _ => ⟨⟨bracket, rfl⟩, .inl rfl⟩⟩
        · have there : other.offset = size := by
            rcases List.mem_cons.mp member with rfl | member
            · rfl
            · obtain ⟨bracket, -, rfl⟩ := List.mem_map.mp member
              rfl
          omega
      · refine ⟨List.pairwise_append.mpr ⟨pairwise_step _ _ _, laterOrder, ?_⟩, ?_⟩
        · intro left here right behind
          have leftOffset := offset_of_mem_step opens here
          have rightBounds := laterBounds right behind
          exact Finding.inOrder_of_lt (by omega)
        · intro finding member
          rcases List.mem_append.mp member with here | behind
          · have offset := offset_of_mem_step opens here
            omega
          · have bounds := laterBounds finding behind
            omega

/-- The findings of a script are in order and none lies behind its end. -/
theorem pairwise_check (source : String) :
    (check source).Pairwise Finding.InOrder ∧
      ∀ finding ∈ check source, finding.offset ≤ Text.byteLength source.toList := by
  have ascend := Token.ascend_scan 0 source.toList
  rw [Nat.zero_add, ← Piece.tokenize_eq_scan] at ascend
  obtain ⟨order, bounds⟩ :=
    pairwise_walk [] ascend fun token member => Token.stop_of_openComment member
  exact ⟨order, fun finding member => (bounds finding member).2⟩

end Balance

end ScriptAnalysis
