import ScriptAnalysis.Proofs.Text.Lines
import ScriptAnalysis.Proofs.Text.Offsets

/-!
# Line endings

`returned` puts a carriage return before every line feed. This leaves lines and columns where they
are: a place has the same number of line feeds before it and the same characters since the last of
them, and the lines are the same up to what is trimmed from their ends.
-/

namespace ScriptAnalysis.Text

/-- Every line feed with a carriage return before it. -/
def returned (chars : List Char) : List Char :=
  chars.flatMap fun c => if c = '\n' then ['\r', '\n'] else [c]

/-- A text with a carriage return before every line feed. -/
def withReturns (text : String) : String :=
  String.ofList (returned text.toList)

variable {chars left right : List Char} {c : Char}

@[simp]
theorem returned_nil : returned [] = [] := rfl

theorem returned_append (left right : List Char) :
    returned (left ++ right) = returned left ++ returned right :=
  List.flatMap_append

theorem returned_feed (rest : List Char) :
    returned ('\n' :: rest) = '\r' :: '\n' :: returned rest := rfl

theorem returned_cons (other : c ≠ '\n') (rest : List Char) :
    returned (c :: rest) = c :: returned rest := by
  rw [returned, List.flatMap_cons, if_neg other]
  rfl

/-- What has no line feed stays as it is. -/
theorem returned_of_notMem (unbroken : '\n' ∉ chars) : returned chars = chars := by
  induction chars with
  | nil => rfl
  | cons c rest inductionHypothesis =>
      rw [List.mem_cons, not_or] at unbroken
      rw [returned_cons (Ne.symm unbroken.1), inductionHypothesis unbroken.2]

@[simp]
theorem toList_withReturns (text : String) :
    (withReturns text).toList = returned text.toList :=
  String.toList_ofList

theorem isEmpty_withReturns (text : String) : (withReturns text).isEmpty = text.isEmpty := by
  rw [Bool.eq_iff_iff, String.isEmpty_iff, String.isEmpty_iff, ← String.toList_eq_nil_iff,
    ← String.toList_eq_nil_iff, toList_withReturns]
  cases text.toList with
  | nil => exact Iff.rfl
  | cons c rest =>
      by_cases breaks : c = '\n'
      · rw [breaks, returned_feed]
        exact iff_of_false (List.cons_ne_nil _ _) (List.cons_ne_nil _ _)
      · rw [returned_cons breaks]
        exact iff_of_false (List.cons_ne_nil _ _) (List.cons_ne_nil _ _)

/-- The first character stays, or a carriage return comes before it. -/
theorem head?_returned {next : Char} (first : (returned chars).head? = some next) :
    next = '\r' ∨ chars.head? = some next := by
  cases chars with
  | nil => cases first
  | cons c rest =>
      by_cases breaks : c = '\n'
      · rw [breaks, returned_feed] at first
        cases first
        exact .inl rfl
      · rw [returned_cons breaks] at first
        exact .inr first

/-- There are as many line feeds as before. -/
theorem count_returned (chars : List Char) : (returned chars).count '\n' = chars.count '\n' := by
  induction chars with
  | nil => rfl
  | cons c rest inductionHypothesis =>
      by_cases breaks : c = '\n'
      · rw [breaks, returned_feed, List.count_cons_of_ne (by decide), List.count_cons_self,
          List.count_cons_self, inductionHypothesis]
      · rw [returned_cons breaks, List.count_cons_of_ne breaks, List.count_cons_of_ne breaks,
          inductionHypothesis]

/-- The characters after the last line feed stay as they are. -/
theorem lastLine_returned (chars : List Char) : lastLine (returned chars) = lastLine chars := by
  rcases unbroken_or_exists_break chars with unbroken | ⟨before, line, unbroken, rfl⟩
  · rw [returned_of_notMem unbroken]
  · rw [returned_append, returned_feed, returned_of_notMem unbroken,
      List.append_cons (returned before) '\r', lastLine_append_break _ unbroken,
      lastLine_append_break _ unbroken]

/-- Two offsets of one place in a text, the second one in the text with returns. -/
def SamePlace (text : List Char) (offset other : Nat) : Prop :=
  ∃ before after, text = before ++ after ∧ offset = byteLength before ∧
    other = byteLength (returned before)

/-- A trimmed text depends on what is trimmed behind its first character only. -/
theorem trimEnd_cons_congr {drop : Char → Bool} (same : trimEnd drop left = trimEnd drop right)
    (c : Char) : trimEnd drop (c :: left) = trimEnd drop (c :: right) := by
  rw [trimEnd, trimEnd, List.reverse_inj] at same
  rw [trimEnd, trimEnd, List.reverse_cons, List.reverse_cons, List.dropWhile_append,
    List.dropWhile_append, same]

/-- The lines are the same, once carriage returns are trimmed from their ends. -/
theorem map_trimEnd_linesOf_returned {drop : Char → Bool} (dropped : drop '\r' = true)
    (chars : List Char) :
    (linesOf (returned chars)).map (trimEnd drop) = (linesOf chars).map (trimEnd drop) := by
  induction chars with
  | nil => rfl
  | cons c rest inductionHypothesis =>
      by_cases breaks : c = '\n'
      · have lines : linesOf ('\n' :: rest) = [] :: linesOf rest :=
          linesOf_append_break [] rest
        have lines' : linesOf ('\r' :: '\n' :: returned rest) = ['\r'] :: linesOf (returned rest) :=
          linesOf_append_break ['\r'] (returned rest)
        have above : trimEnd drop ['\r'] = trimEnd drop [] := trimEnd_concat dropped []
        rw [breaks, returned_feed, lines, lines', List.map_cons, List.map_cons, above,
          inductionHypothesis]
      · obtain ⟨first, others, lines, longer⟩ := linesOf_cons breaks rest
        obtain ⟨first', others', lines', longer'⟩ := linesOf_cons breaks (returned rest)
        rw [lines, lines', List.map_cons, List.map_cons, List.cons.injEq] at inductionHypothesis
        rw [returned_cons breaks, longer, longer', List.map_cons, List.map_cons,
          inductionHypothesis.2, trimEnd_cons_congr inductionHypothesis.1 c]

end ScriptAnalysis.Text
